import EtherSwitch.Device.Faulty
import EtherSwitch.Error

/-! The MDIO management bus: 16-bit registers of PHYs. -/

namespace EtherSwitch

inductive MdioBus.Call where
  | read (phy register : UInt8)
  | write (phy register : UInt8) (word : BitVec 16)
  | delay (micros : Nat)
  deriving DecidableEq, Repr

abbrev MdioBus.Answer : MdioBus.Call → Type
  | .read _ _ => Except IoError (BitVec 16)
  | .write _ _ _ => Except IoError Unit
  | .delay _ => Unit

/-- An MDIO bus master. -/
abbrev MdioBus : Interface := ⟨MdioBus.Call, MdioBus.Answer⟩

instance : Refusable MdioBus IoError where
  refusal
    | .read _ _ => some fun e => .error e
    | .write _ _ _ => some fun e => .error e
    | .delay _ => none

end EtherSwitch
