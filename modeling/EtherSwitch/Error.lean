import EtherSwitch.Register.Address

/-! What can go wrong. `IoError` is why a bus did not move data, `Error` is why a register access or a
    switch operation failed; each names its cause and renders it in one function. -/

namespace EtherSwitch

/-- An error number of the operating system. -/
structure Errno where
  number : Nat
  deriving DecidableEq, Repr

namespace Errno

def noEntry : Errno := ⟨2⟩

def ioError : Errno := ⟨5⟩

def invalidArgument : Errno := ⟨22⟩

/-- The system's description of an error number. -/
def description : Errno → String
  | ⟨2⟩ => "No such file or directory"
  | ⟨5⟩ => "Input/output error"
  | ⟨13⟩ => "Permission denied"
  | ⟨19⟩ => "No such device"
  | ⟨22⟩ => "Invalid argument"
  | ⟨25⟩ => "Inappropriate ioctl for device"
  | ⟨95⟩ => "Operation not supported"
  | ⟨110⟩ => "Connection timed out"
  | ⟨n⟩ => s!"Unknown error {n}"

end Errno

/-- Why a bus did not move data. -/
inductive IoError where
  /-- The operating system refused the request. -/
  | os (errno : Errno)
  /-- A file name holds a zero byte. -/
  | zeroInFileName
  /-- The address register of the pseudo PHY was given an operation it does not know. -/
  | unknownOperation (operation : Nat)
  | malformedWriteFrame
  | malformedReadFrame
  /-- A fault put in on purpose. -/
  | injected
  /-- A bus's own description of its failure. -/
  | other (description : String)
  deriving DecidableEq, Repr

def IoError.message : IoError → String
  | os e => s!"{e.description} (os error {e.number})"
  | zeroInFileName => "file name contained an unexpected NUL byte"
  | unknownOperation op => s!"unknown MDIO op {op}"
  | malformedWriteFrame => "malformed SPI write frame"
  | malformedReadFrame => "malformed SPI read frame"
  | injected => "injected failure"
  | other description => description

/-- Operations that only some chips offer. -/
inductive Feature where
  | vlanBase
  deriving DecidableEq, Repr

def Feature.name : Feature → String
  | vlanBase => "VLAN base"

/-- Why a register access or a switch operation failed. -/
inductive Error where
  /-- The bus did not move data. -/
  | io (cause : IoError)
  /-- The SPI read acknowledge never came. -/
  | spiTimeout (location : Location)
  /-- An MDIO operation did not complete, and that counts as a failure. -/
  | mdioTimeout (location : Location)
  /-- The device id matches no supported chip. -/
  | unknownChip (id : BitVec 16)
  /-- Forwarding did not stay enabled during reset. -/
  | resetFailed
  | invalidPort (port ports : UInt8)
  /-- The port has no PHY behind it. -/
  | noPhyStatus (port : UInt8)
  | invalidVlanIndex (index count : UInt16)
  /-- The VLAN table entry cannot be configured on this chip. -/
  | reservedVlan (index : UInt16)
  | invalidVlanId (vid max : UInt16)
  /-- The speed field of a port holds a reserved encoding. -/
  | invalidSpeed (port : UInt8) (field : BitVec 8)
  | unsupported (feature : Feature)
  /-- A holder of the bus lock gave up while holding it. -/
  | lockPoisoned
  deriving DecidableEq, Repr

def Error.message : Error → String
  | io cause => s!"bus I/O failed: {cause.message}"
  | spiTimeout l => s!"SPI read of {l.text} not acknowledged"
  | mdioTimeout l => s!"MDIO access to {l.text} timed out"
  | unknownChip id => s!"unsupported switch id 0x{Numeral.hex id.toNat}"
  | resetFailed => "failed to enable switch forwarding"
  | invalidPort port ports => s!"port {port.toNat} out of range (chip has {ports.toNat} ports)"
  | noPhyStatus port => s!"port {port.toNat} has no link status"
  | invalidVlanIndex index count => s!"VLAN index {index.toNat} out of range (table has {count.toNat} entries)"
  | reservedVlan index => s!"VLAN entry {index.toNat} is reserved on this chip"
  | invalidVlanId vid max => s!"VLAN id {vid.toNat} exceeds maximum {max.toNat}"
  | invalidSpeed port field => s!"port {port.toNat} reports reserved speed encoding {field.toNat}"
  | unsupported feature => s!"{feature.name} not supported on this chip"
  | lockPoisoned => "bus lock poisoned"

end EtherSwitch
