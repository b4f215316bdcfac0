import EtherSwitch.Device.Faulty
import EtherSwitch.Error

/-! The SPI bus with the switch on its chip select. Each call but a delay is one transaction. -/

namespace EtherSwitch

inductive SpiBus.Call where
  | write (bytes : List UInt8)
  /-- Sends bytes and then clocks in `length` more. -/
  | transfer (bytes : List UInt8) (length : Nat)
  | delay (micros : Nat)
  deriving DecidableEq, Repr

abbrev SpiBus.Answer : SpiBus.Call → Type
  | .write _ => Except IoError Unit
  | .transfer _ _ => Except IoError (List UInt8)
  | .delay _ => Unit

/-- An SPI bus master. -/
abbrev SpiBus : Interface := ⟨SpiBus.Call, SpiBus.Answer⟩

instance : Refusable SpiBus IoError where
  refusal
    | .write _ => some fun e => .error e
    | .transfer _ _ => some fun e => .error e
    | .delay _ => none

end EtherSwitch
