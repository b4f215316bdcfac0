import EtherSwitch.Program

/-! Devices that keep the list of the calls made to them. Recording changes no answer (`run_recorded`). -/

namespace EtherSwitch

/-- A device and the calls made to it, oldest first. -/
structure Recorded (I : Interface) (σ : Type) where
  calls : List I.Call
  device : σ

namespace Recorded
variable {I : Interface} {σ : Type}

/-- Nothing recorded yet. -/
def fresh (s : σ) : Recorded I σ := ⟨[], s⟩

/-- The calls recorded so far, and the device with an empty record. -/
def drain (s : Recorded I σ) : List I.Call × Recorded I σ := (s.calls, { s with calls := [] })

/-- Changes the device from outside; that is no call. -/
def modify (f : σ → σ) (s : Recorded I σ) : Recorded I σ := { s with device := f s.device }

end Recorded

variable {I : Interface} {α σ : Type}

/-- The device that records each call and passes it on. -/
def Device.recorded (d : Device I σ) : Device I (Recorded I σ) := fun c s =>
  match d c s.device with
  | (a, s') => (a, ⟨s.calls ++ [c], s'⟩)

theorem run_recorded (d : Device I σ) (p : Program I α) (s : Recorded I σ) :
    (p.run (Device.recorded d) s).1 = (p.run d s.device).1 ∧
      (p.run (Device.recorded d) s).2.device = (p.run d s.device).2 := by
  induction p generalizing s with
  | done a => exact ⟨rfl, rfl⟩
  | ask c k ih => exact ih _ _

end EtherSwitch
