import EtherSwitch.Linux.Kernel
import EtherSwitch.Text.Numeral

/-! The SPI bus of a spidev node. A write is a message of one transfer; a transfer that reads is a
    message of two, so that chip select stays asserted between them. -/

namespace EtherSwitch.Spidev

/-- Clock phase and polarity. -/
inductive Mode where
  | mode0 | mode1 | mode2 | mode3
  deriving DecidableEq, Repr

def Mode.number : Mode → UInt8
  | mode0 => 0
  | mode1 => 1
  | mode2 => 2
  | mode3 => 3

def Mode.ofNumber? (n : Nat) : Option Mode :=
  match n with
  | 0 => some mode0
  | 1 => some mode1
  | 2 => some mode2
  | 3 => some mode3
  | _ => none

theorem Mode.ofNumber?_number (m : Mode) : ofNumber? m.number.toNat = some m := by cases m <;> rfl

/-- Which node the switch is on and how it is clocked. -/
structure Settings where
  device : String
  clockHz : UInt32 := 2000000
  mode : Mode := .mode0
  deriving DecidableEq, Repr

/-- What is set up when a node is opened. -/
inductive Setting where
  | mode | bitsPerWord | maxClock
  deriving DecidableEq, Repr

def Setting.name : Setting → String
  | mode => "mode"
  | bitsPerWord => "bits per word"
  | maxClock => "max clock"

/-- Why a node could not be opened. -/
inductive OpenError where
  | noDevice
  | openFailed (path : String) (cause : IoError)
  | setupFailed (path : String) (setting : Setting) (value : UInt32) (cause : IoError)
  deriving DecidableEq, Repr

def OpenError.message : OpenError → String
  | noDevice => "no spidev node configured"
  | openFailed path cause => s!"cannot open {path}: {cause.message}"
  | setupFailed path setting value cause =>
    s!"{path}: failed to set {setting.name} to {value.toNat}: {cause.message}"

/-- An open node. -/
structure Port where
  speedHz : UInt32
  deriving DecidableEq, Repr

def bitsPerWord : UInt8 := 8

/-- Opens a node and sets mode, word size and clock. -/
def connect (s : Settings) : ExceptT OpenError (Program Kernel) Port := do
  if s.device = "" then throw .noDevice
  let setUp (setting : Setting) (value : UInt32) (p : Program Kernel (Except Errno Unit)) :
      ExceptT OpenError (Program Kernel) Unit :=
    ExceptT.mk (p >>= fun answer => pure (answer.mapError fun e => .setupFailed s.device setting value (.os e)))
  ExceptT.mk do
    let answer ← Program.call (I := Kernel) (.openFile s.device)
    return answer.mapError (.openFailed s.device)
  setUp .mode s.mode.number.toUInt32 (Program.call (I := Kernel) (.setSpiMode s.mode.number))
  setUp .bitsPerWord bitsPerWord.toUInt32 (Program.call (I := Kernel) (.setSpiBitsPerWord bitsPerWord))
  setUp .maxClock s.clockHz (Program.call (I := Kernel) (.setSpiMaxSpeed s.clockHz))
  return ⟨s.clockHz⟩

namespace Port

def sendTransfer (p : Port) (bytes : List UInt8) : SpiTransfer :=
  { buffer := .send bytes, speedHz := p.speedHz, bitsPerWord }

def receiveTransfer (p : Port) (length : Nat) : SpiTransfer :=
  { buffer := .receive length, speedHz := p.speedHz, bitsPerWord }

end Port

/-- The SPI bus of an open node. -/
def layer : Layer SpiBus Kernel Port
  | .write bytes => fun p => do
    let answer ← Program.call (I := Kernel) (.spiMessage [p.sendTransfer bytes])
    return ((answer.mapError .os).map fun _ => (), p)
  | .transfer bytes length => fun p => do
    let answer ← Program.call (I := Kernel) (.spiMessage [p.sendTransfer bytes, p.receiveTransfer length])
    return (answer.mapError .os, p)
  | .delay micros => fun p => do
    Program.call (I := Kernel) (.sleep micros)
    return ((), p)

/-! ### Options -/

/-- Why options do not make settings. -/
inductive OptionError where
  | clock (key value : String)
  | mode (value : String)
  | deviceMissing
  deriving DecidableEq, Repr

def OptionError.message : OptionError → String
  | clock key value => s!"linux_spi: {key}={value} is not a clock in kHz"
  | mode value => s!"linux_spi: mode={value} is not a clock mode 0..3"
  | deviceMissing => "linux_spi: dev=<spidev node> is required"

/-- A clock in kHz whose frequency in Hz fits 32 bits. -/
def clockOfText? (text : String) : Option UInt32 := do
  let khz ← Numeral.parse? 10 UInt32.size text.toList
  if khz * 1000 < UInt32.size then some (UInt32.ofNat (khz * 1000)) else none

def modeOfText? (text : String) : Option Mode := do
  Mode.ofNumber? (← Numeral.parse? 10 UInt8.size text.toList)

/-- The settings after one more option; keys that mean nothing are passed over. -/
def Settings.withOption (s : Settings) (key value : String) : Except OptionError Settings :=
  if key = "dev" then .ok { s with device := value }
  else if key = "speed" ∨ key = "spispeed" then
    match clockOfText? value with
    | some clockHz => .ok { s with clockHz }
    | none => .error (.clock key value)
  else if key = "mode" then
    match modeOfText? value with
    | some mode => .ok { s with mode }
    | none => .error (.mode value)
  else .ok s

/-- The settings that options make. Later options win; a device is required. -/
def Settings.ofOptions (options : List (String × String)) : Except OptionError Settings := do
  let s ← options.foldlM (fun s (key, value) => s.withOption key value) { device := "" }
  if s.device = "" then throw .deviceMissing
  return s

end EtherSwitch.Spidev
