import EtherSwitch.Chip
import EtherSwitch.Register.Access

/-! Finding out which chip answers. -/

namespace EtherSwitch

/-- The 8-bit device id, read again while it is zero, `retries` times at most. -/
def readDeviceId : (retries : Nat) → Script (BitVec 8)
  | 0 => Script.read8 Layout.deviceId
  | n + 1 => do
    let id ← Script.read8 Layout.deviceId
    if id = 0 then readDeviceId n else return id

/-- The chip that a device id names, with the help of the registers that tell further. -/
def resolveChip (id : BitVec 8) : Script Chip := do
  if Chip.isSharedId id then
    return Chip.ofVlanControl4 (← Script.read8 Layout.vlanControl4)
  match Chip.ofId8? id with
  | some chip => return chip
  | none =>
    let id16 ← Script.read16 Layout.deviceId
    match Chip.ofId16? id16 with
    | some chip => return chip
    | none => throw (.unknownChip id16)

/-- How often a device id of zero is read again. -/
def idRetries : Nat := 9

/-- Identifies the chip behind the registers. It writes nothing. -/
def probe : Script Identity := do
  let id ← readDeviceId idRetries
  let chip ← resolveChip id
  let revision ← Script.read8 Layout.coreRevision
  return ⟨chip, UInt8.ofBitVec revision⟩

end EtherSwitch
