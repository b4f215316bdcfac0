import EtherSwitch.Chip.Probe
import EtherSwitch.Family

/-! A switch under control: the operations of a front end, as a layer over the registers that keeps the
    logical configuration. Setters only change the configuration; it reaches the chip by `applyConfig`
    and `resetSwitch`. -/

namespace EtherSwitch

/-- What a front end can ask of a switch. -/
inductive Switch.Operation where
  | config
  | setVlanEnabled (on : Bool)
  | setVlanBase (base : UInt16)
  | portPvid (port : UInt8)
  | setPortPvid (port : UInt8) (vid : UInt16)
  | vlanPorts (index : UInt16)
  | setVlanPorts (index : UInt16) (members : List VlanPort)
  | applyConfig
  | resetSwitch
  | portLink (port : UInt8)
  | portLinks
  | setManaged (on : Bool)
  | readRegister (address : Address)
  | writeRegister (address : Address) (value : BitVec 64)
  deriving DecidableEq, Repr

/-- What an operation gives when it succeeds. -/
abbrev Switch.Operation.Result : Switch.Operation → Type
  | .config => Config
  | .portPvid _ => UInt16
  | .vlanPorts _ => List VlanPort
  | .portLink _ => PortLink
  | .portLinks => List PortLink
  | .readRegister _ => BitVec 64
  | _ => Unit

/-- Control of a switch. -/
abbrev Switch : Interface := ⟨Switch.Operation, fun op => Except Error op.Result⟩

namespace Switch

/-- Identifies the chip behind the registers, brings it to its baseline and starts from the default
    configuration. -/
def register : Script Config := do
  let identity ← probe
  identity.chip.family.reset identity.chip
  return Config.initial identity

/-- A script of the switch, which keeps the configuration whether or not the script fails. -/
abbrev Task : Type → Type := ExceptT Error (StateT Config (Program Registers))

/-- The task of running a script on the current configuration. -/
def script {α : Type} (f : Config → Script α) : Task α := ExceptT.mk fun c => do
  let result ← (f c).run
  return (result, c)

/-- The task of changing the configuration, which stays as it is if the change is refused. -/
def change (f : Config → Except Error Config) : Task Unit := do
  match f (← get) with
  | .ok c => set c
  | .error e => throw e

/-- The task of looking at the configuration. -/
def look {α : Type} (f : Config → Except Error α) : Task α := do
  match f (← get) with
  | .ok a => return a
  | .error e => throw e

def applyConfig (c : Config) : Script Unit := c.chip.family.apply c.chip c

def portLink (c : Config) (port : UInt8) : Script PortLink := c.chip.family.portLink c.chip port

/-- The links of all ports that have a PHY. -/
def portLinks (c : Config) : Script (List PortLink) := (portsBelow (c.chip.lastPhyPort + 1)).mapM (portLink c)

/-- Goes back to the default configuration, in the switch's books first and then in the chip. -/
def resetSwitch : Task Unit := do
  modify Config.clear
  script fun c => do
    c.chip.family.reset c.chip
    applyConfig c

def perform : (op : Operation) → Task op.Result
  | .config => get
  | .setVlanEnabled on => modify (Config.setVlanEnabled · on)
  | .setVlanBase base => change (Config.setVlanBase · base)
  | .portPvid port => look (Config.portPvid · port)
  | .setPortPvid port vid => change (Config.setPortPvid · port vid)
  | .vlanPorts index => look (Config.vlanPorts · index)
  | .setVlanPorts index members => change (Config.setVlanPorts · index members)
  | .applyConfig => script applyConfig
  | .resetSwitch => resetSwitch
  | .portLink port => script (portLink · port)
  | .portLinks => script portLinks
  | .setManaged on => script fun _ => EtherSwitch.setManaged on false
  | .readRegister a => script fun _ => Script.read a
  | .writeRegister a value => script fun _ => Script.write a value

/-- The layer that offers the operations over the registers. -/
def layer : Layer Switch Registers Config := fun op => (perform op).run

end Switch

end EtherSwitch
