import EtherSwitch.Bus.Mdio
import EtherSwitch.Register.Access
import EtherSwitch.Word

/-! Register access over MDIO. The switch answers as a pseudo PHY: an access selects the page, loads the
    data registers if it writes, issues the operation, waits for it to complete and collects the data
    registers if it reads. An operation that does not complete is counted; it fails the access only if
    the settings are strict. -/

namespace EtherSwitch.PseudoPhy

def defaultPhy : UInt8 := 0x1e

def pageRegister : UInt8 := 0x10

def addressRegister : UInt8 := 0x11

/-- The registers of the 16-bit chunks of a value, least significant first. -/
def dataRegister (i : Nat) : UInt8 := 0x18 + UInt8.ofNat i

inductive Operation where
  | write | read
  deriving DecidableEq, Repr

def Operation.code : Operation → BitVec 8
  | write => 1
  | read => 2

/-- The bits of the address register that show an operation under way. -/
def operationMask : BitVec 16 := 3

/-- How often the address register is read before an operation is given up. -/
def pollLimit : Nat := 5

def pollDelay : Nat := 10

structure Settings where
  phy : UInt8 := defaultPhy
  /-- Whether an operation that does not complete fails the access. -/
  strict : Bool := false
  deriving DecidableEq, Repr

/-- The number of data registers that a width takes. -/
def chunks : Width → Nat
  | .bits8 | .bits16 => 1
  | .bits32 => 2
  | .bits48 => 3
  | .bits64 => 4

/-- A transaction on the bus, with the number of operations that did not complete so far. -/
abbrev Transaction : Type → Type := ExceptT Error (StateT Nat (Program MdioBus))

/-- A program over the bus as part of a transaction. -/
def onBus {α : Type} (p : Program MdioBus (Except IoError α)) : Transaction α := ExceptT.mk do
  let answer ← StateT.lift p
  return answer.mapError .io

def readWord (phy register : UInt8) : Transaction (BitVec 16) :=
  onBus (Program.call (I := MdioBus) (.read phy register))

def writeWord (phy register : UInt8) (word : BitVec 16) : Transaction Unit :=
  onBus (Program.call (I := MdioBus) (.write phy register word))

def delay (micros : Nat) : Transaction Unit :=
  ExceptT.lift (StateT.lift (Program.call (I := MdioBus) (.delay micros)))

namespace Settings

def selectPage (s : Settings) (page : UInt8) : Transaction Unit :=
  writeWord s.phy pageRegister (page.toBitVec ++ (1 : BitVec 8))

/-- Whether the operation under way completes within the given number of polls. -/
def completes (s : Settings) : (polls : Nat) → Transaction Bool
  | 0 => return false
  | n + 1 => do
    let word ← readWord s.phy addressRegister
    if word &&& operationMask = 0 then return true
    delay pollDelay
    s.completes n

/-- Issues an operation and waits for it. -/
def operate (s : Settings) (location : Location) (operation : Operation) : Transaction Unit := do
  writeWord s.phy addressRegister (location.offset.toBitVec ++ operation.code)
  if ← s.completes pollLimit then return
  modify (· + 1)
  if s.strict then throw (.mdioTimeout location)

def load (s : Settings) (words : List (BitVec 16)) : Transaction Unit :=
  words.zipIdx.forM fun (word, i) => writeWord s.phy (dataRegister i) word

def collect (s : Settings) (count : Nat) : Transaction (List (BitVec 16)) :=
  (List.range count).mapM fun i => readWord s.phy (dataRegister i)

def read (s : Settings) (a : Address) : Transaction (BitVec 64) := do
  s.selectPage a.location.page
  s.operate a.location .read
  let words ← s.collect (chunks a.width)
  return a.width.truncate (Word.ofLimbs words)

def write (s : Settings) (a : Address) (value : BitVec 64) : Transaction Unit := do
  s.selectPage a.location.page
  s.load (Word.limbs 16 (chunks a.width) (a.width.truncate value))
  s.operate a.location .write

/-- Registers over an MDIO bus; the state counts the operations that did not complete. -/
def layer (s : Settings) : Layer Registers MdioBus Nat
  | .read a => (s.read a).run
  | .write a value => (s.write a value).run

end Settings

end EtherSwitch.PseudoPhy
