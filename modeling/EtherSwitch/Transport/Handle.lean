import EtherSwitch.Switch
import EtherSwitch.Transport.Connection
import EtherSwitch.Transport.Params

/-! Opening a switch by a transport string. Whatever the transport, the result is a handle that offers
    the operations of a switch. -/

namespace EtherSwitch.Transport

/-- A kind of transport, as listed to users. -/
structure Info where
  name : String
  aliases : List String
  description : String
  deriving DecidableEq, Repr

def simulated : Info := ⟨"dummy", [], "Simulated switch (chip=<hex id>,vc4=<n>,transport=<mdio|spi>)"⟩

def linuxSpi : Info :=
  ⟨"linux_spi", ["linux-spi", "spidev"], "Linux spidev device (dev=/dev/spidevX.Y,speed=<kHz>,mode=<0-3>)"⟩

def linuxMdio : Info :=
  ⟨"linux_mdio", ["linux-mdio", "mdio"], "MDIO bus of a network interface (iface=<netdev>,phy=<addr>)"⟩

/-- All transports. -/
def available : List Info := [simulated, linuxSpi, linuxMdio]

/-- The names of all transports, for a line of help. -/
def shortNames : String := ", ".intercalate (available.map Info.name)

def Info.answersTo (i : Info) (name : String) : Bool := name == i.name || i.aliases.contains name

/-- Why a switch could not be opened. -/
inductive OpenError where
  | params (cause : ParamsError)
  | unknownTransport (name : String)
  | chipId (text : String)
  | vlanControl4 (text : String)
  | simulatedBus (name : String)
  | spidevOptions (cause : Spidev.OptionError)
  | spidev (cause : Spidev.OpenError)
  | miiOptions (cause : Mii.OptionError)
  | mii (cause : Mii.OpenError)
  /-- The connection was made, but no switch came up on it. -/
  | switch (cause : Error)
  deriving DecidableEq, Repr

def OpenError.message : OpenError → String
  | params cause => cause.message
  | unknownTransport name => s!"Unknown transport: {name}"
  | chipId text => s!"Invalid chip id: {text}"
  | vlanControl4 text => s!"Invalid vc4 value: {text}"
  | simulatedBus name => s!"Invalid dummy transport: {name} (mdio or spi)"
  | spidevOptions cause => cause.message
  | spidev cause => cause.message
  | miiOptions cause => cause.message
  | mii cause => cause.message
  | switch cause => cause.message

/-! ### Simulated chips -/

/-- A text without the `0x`s that it starts with. -/
def stripHexMarks : List Char → List Char
  | '0' :: 'x' :: rest => stripHexMarks rest
  | text => text

def modelOfOptions (options : List (String × String)) : Except OpenError Model := do
  let deviceId ← match option? options "chip" with
    | none => .ok Model.standard.deviceId
    | some text =>
      match Numeral.parse? 16 UInt16.size (stripHexMarks text.toList) with
      | some id => .ok (BitVec.ofNat 16 id)
      | none => .error (.chipId text)
  let vlanControl4 ← match option? options "vc4" with
    | none => .ok Model.standard.vlanControl4
    | some text =>
      match Numeral.parse? 10 UInt8.size text.toList with
      | some value => .ok (BitVec.ofNat 8 value)
      | none => .error (.vlanControl4 text)
  return { deviceId, vlanControl4 }

/-- A fresh simulated chip on the bus that the options name. -/
def connectSimulated (options : List (String × String)) : Except OpenError Connection := do
  let chip := Simulation.new (← modelOfOptions options)
  match option? options "transport" with
  | none | some "mdio" => return .simulatedMdio 0 chip
  | some "spi" => return .simulatedSpi chip
  | some other => throw (.simulatedBus other)

/-! ### Linux -/

def connectSpidev (options : List (String × String)) : ExceptT OpenError (Program Kernel) Connection := do
  let settings ← (Spidev.Settings.ofOptions options).mapError OpenError.spidevOptions
  let port ← ExceptT.adapt .spidev (Spidev.connect settings)
  return .spidev port

def connectMii (options : List (String × String)) : ExceptT OpenError (Program Kernel) Connection := do
  let settings ← (Mii.Settings.ofOptions options).mapError OpenError.miiOptions
  let port ← ExceptT.adapt .mii (Mii.connect settings)
  return .mii settings.phy 0 port

/-! ### Handles -/

/-- The transport that a name selects and the connection that the options make. -/
def connect (params : Params) : ExceptT OpenError (Program Kernel) (Info × Connection) := do
  if simulated.answersTo params.name then return (simulated, ← connectSimulated params.options)
  if linuxSpi.answersTo params.name then return (linuxSpi, ← connectSpidev params.options)
  if linuxMdio.answersTo params.name then return (linuxMdio, ← connectMii params.options)
  throw (.unknownTransport params.name)

/-- A switch that was opened. -/
structure Handle where
  transport : String
  connection : Connection
  config : Config

/-- Opens a transport, identifies the switch on it and brings the switch to its baseline. -/
def openSwitch (text : String) : ExceptT OpenError (Program Kernel) Handle := do
  let params ← (Params.ofText text).mapError OpenError.params
  let (info, connection) ← connect params
  ExceptT.mk do
    let (config, connection) ← connection.run Switch.register.run
    return (config.mapError .switch).map fun config => ⟨info.name, connection, config⟩

/-- The operations of a switch through its handle. -/
def Handle.layer : Layer Switch Kernel Handle := fun op h => do
  let ((answer, config), connection) ← h.connection.run ((Switch.layer op).run h.config)
  return (answer, { h with connection, config })

end EtherSwitch.Transport
