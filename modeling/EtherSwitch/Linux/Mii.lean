import EtherSwitch.Linux.Kernel
import EtherSwitch.Protocol.PseudoPhy
import EtherSwitch.Text.Numeral

/-! The MDIO bus of a network interface, reached by the MII ioctls. One request buffer serves all calls;
    each call fills it anew, and a read takes its answer from it. -/

namespace EtherSwitch.Mii

/-- The size of the name field of a request; a name leaves room for one zero byte at least. -/
def nameSize : Nat := 16

/-- The highest address on an MDIO bus. -/
def maxPhy : UInt8 := 0x1f

structure Settings where
  interface : String
  phy : UInt8 := PseudoPhy.defaultPhy
  deriving DecidableEq, Repr

/-- Why the bus of an interface could not be opened. -/
inductive OpenError where
  | noInterface
  | interfaceName (name : String)
  | socket (cause : IoError)
  /-- The interface does not answer the MII ioctls. -/
  | noMii (interface : String) (cause : IoError)
  deriving DecidableEq, Repr

def OpenError.message : OpenError → String
  | noInterface => "No interface specified. Use iface=<netdev>"
  | interfaceName name => s!"Interface name too long: {name}"
  | socket cause => s!"Failed to create control socket: {cause.message}"
  | noMii interface cause => s!"{interface} has no MII access: {cause.message}"

/-- An open bus and its request buffer. -/
structure Port where
  interface : String
  request : MiiRequest
  deriving DecidableEq, Repr

/-- The bytes of a name, filled up with zero bytes to the size of the name field. -/
def nameField (name : String) : List UInt8 :=
  let bytes := name.toUTF8.toList
  bytes ++ List.replicate (nameSize - bytes.length) 0

/-- Whether a name fits the name field: shorter than the field and without zero bytes. -/
def nameFits (name : String) : Bool :=
  name.toUTF8.toList.length < nameSize && !name.toUTF8.toList.contains 0

/-- The buffer filled for a call; nothing of the call before is left but the name. -/
def fill (r : MiiRequest) (phy register : UInt8) (valueIn : BitVec 16) : MiiRequest :=
  { name := r.name, phy := phy.toUInt16, register := register.toUInt16, valueIn }

def Port.read (phy register : UInt8) (p : Port) : Program Kernel (Except IoError (BitVec 16) × Port) := do
  let request := fill p.request phy register 0
  let answer ← Program.call (I := Kernel) (.miiRead request)
  return match answer with
    | .ok request => (.ok request.valueOut, { p with request })
    | .error e => (.error (.os e), { p with request })

def Port.write (phy register : UInt8) (word : BitVec 16) (p : Port) :
    Program Kernel (Except IoError Unit × Port) := do
  let request := fill p.request phy register word
  let answer ← Program.call (I := Kernel) (.miiWrite request)
  return (answer.mapError .os, { p with request })

/-- The MDIO bus of an open interface. -/
def layer : Layer MdioBus Kernel Port
  | .read phy register => Port.read phy register
  | .write phy register word => Port.write phy register word
  | .delay micros => fun p => do
    Program.call (I := Kernel) (.sleep micros)
    return ((), p)

/-- The register that is read to see that an interface answers the MII ioctls. -/
def idRegister : UInt8 := 2

/-- Opens the MDIO bus of an interface and reads one register to see that it answers. -/
def connect (s : Settings) : ExceptT OpenError (Program Kernel) Port := do
  if s.interface = "" then throw .noInterface
  if !nameFits s.interface then throw (.interfaceName s.interface)
  ExceptT.mk do
    let answer ← Program.call (I := Kernel) .openSocket
    return answer.mapError fun e => .socket (.os e)
  ExceptT.mk do
    let (answer, p) ← Port.read s.phy idRegister ⟨s.interface, { name := nameField s.interface }⟩
    return (answer.mapError (.noMii s.interface)).map fun _ => p

/-! ### Options -/

/-- Why options do not make settings. -/
inductive OptionError where
  | phy (text : String)
  | phyOutOfRange (phy : Nat)
  | interfaceMissing
  deriving DecidableEq, Repr

def OptionError.message : OptionError → String
  | phy text => s!"Invalid phy value: {text}"
  | phyOutOfRange n => s!"Invalid MDIO address: {n} (must be 0-31)"
  | interfaceMissing => "No interface specified. Use iface=<netdev>"

/-- A byte in decimal, or in hexadecimal after one 0x or 0X. -/
def byteOfText? (text : String) : Option Nat :=
  match text.toList with
  | '0' :: 'x' :: rest => Numeral.parse? 16 UInt8.size rest
  | '0' :: 'X' :: rest => Numeral.parse? 16 UInt8.size rest
  | chars => Numeral.parse? 10 UInt8.size chars

/-- The settings after one more option; keys that mean nothing are passed over. -/
def Settings.withOption (s : Settings) (key value : String) : Except OptionError Settings :=
  if key = "iface" then .ok { s with interface := value }
  else if key = "phy" then
    match byteOfText? value with
    | some phy => if maxPhy.toNat < phy then .error (.phyOutOfRange phy)
      else .ok { s with phy := UInt8.ofNat phy }
    | none => .error (.phy value)
  else .ok s

/-- The settings that options make. Later options win; an interface is required. -/
def Settings.ofOptions (options : List (String × String)) : Except OptionError Settings := do
  let s ← options.foldlM (fun s (key, value) => s.withOption key value) { interface := "" }
  if s.interface = "" then throw .interfaceMissing
  return s

end EtherSwitch.Mii
