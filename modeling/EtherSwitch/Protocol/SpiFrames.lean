import EtherSwitch.Bus.Spi
import EtherSwitch.Register.Access
import EtherSwitch.Word

/-! Register access over SPI, in frames of a command byte, an offset and data. A read is started, polled
    for until it is acknowledged and then collected byte by byte; a missing acknowledge fails it. -/

namespace EtherSwitch.SpiFrames

def readCommand : UInt8 := 0x60

def writeCommand : UInt8 := 0x61

def pageRegister : UInt8 := 0xff

def statusRegister : UInt8 := 0xfe

/-- The registers of the bytes of a value that was read, least significant first. -/
def dataRegister (i : Nat) : UInt8 := 0xf0 + UInt8.ofNat i

/-- The status bit that acknowledges a read. -/
def acknowledged : UInt8 := 0x20

/-- How often the status is read before a read is given up. -/
def pollLimit : Nat := 10

def pollDelay : Nat := 1000

/-- A transaction on the bus. -/
abbrev Transaction : Type → Type := ExceptT Error (Program SpiBus)

def send (bytes : List UInt8) : Transaction Unit := ExceptT.mk do
  let answer ← Program.call (I := SpiBus) (.write bytes)
  return answer.mapError .io

/-- Reads one byte of a register of the bus interface. -/
def readByte (register : UInt8) : Transaction UInt8 := ExceptT.mk do
  let answer ← Program.call (I := SpiBus) (.transfer [readCommand, register] 1)
  return (answer.map fun bytes => bytes.headD 0).mapError .io

def delay (micros : Nat) : Transaction Unit := ExceptT.lift (Program.call (I := SpiBus) (.delay micros))

def selectPage (page : UInt8) : Transaction Unit := send [writeCommand, pageRegister, page]

/-- Waits for the acknowledge of a read, at most the given number of polls. -/
def awaitAcknowledge (location : Location) : (polls : Nat) → Transaction Unit
  | 0 => throw (.spiTimeout location)
  | n + 1 => do
    let status ← readByte statusRegister
    if status &&& acknowledged ≠ 0 then return
    delay pollDelay
    awaitAcknowledge location n

/-- Collects the bytes of a value, most significant first. -/
def collect (count : Nat) : Transaction (List UInt8) :=
  (List.range count).reverse.mapM fun i => readByte (dataRegister i)

def read (a : Address) : Transaction (BitVec 64) := do
  selectPage a.location.page
  let _ ← readByte a.location.offset
  awaitAcknowledge a.location pollLimit
  let bytes ← collect a.width.bytes
  return Word.ofLimbs (bytes.reverse.map UInt8.toBitVec)

/-- The bytes of a value of the given width, least significant first. -/
def valueBytes (w : Width) (value : BitVec 64) : List UInt8 :=
  (Word.limbs 8 w.bytes value).map UInt8.ofBitVec

def write (a : Address) (value : BitVec 64) : Transaction Unit := do
  selectPage a.location.page
  send (writeCommand :: a.location.offset :: valueBytes a.width value)

/-- Registers over an SPI bus. -/
def layer : Layer Registers SpiBus Unit
  | .read a => StateT.lift (read a).run
  | .write a value => StateT.lift (write a value).run

end EtherSwitch.SpiFrames
