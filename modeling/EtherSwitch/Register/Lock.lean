import EtherSwitch.Register.Access

/-! A device behind the lock that serializes accesses. The lock is poisoned when a holder gives up while
    holding it; from then on every access fails and the device is not reached. -/

namespace EtherSwitch

structure Locked (σ : Type) where
  poisoned : Bool
  device : σ

def Locked.fresh {σ : Type} (s : σ) : Locked σ := ⟨false, s⟩

def Locked.poison {σ : Type} (s : Locked σ) : Locked σ := { s with poisoned := true }

/-- Changes the device from outside, past the lock. -/
def Locked.modify {σ : Type} (f : σ → σ) (s : Locked σ) : Locked σ := { s with device := f s.device }

/-- Access to the registers of a device behind its lock. -/
def Device.locked {σ : Type} (d : Device Registers σ) : Device Registers (Locked σ) := fun c s =>
  match s.poisoned, c with
  | true, .read _ => (.error .lockPoisoned, s)
  | true, .write _ _ => (.error .lockPoisoned, s)
  | false, c =>
    match d c s.device with
    | (a, s') => (a, { s with device := s' })

end EtherSwitch
