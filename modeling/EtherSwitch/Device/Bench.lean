import EtherSwitch.Device.Faulty
import EtherSwitch.Device.Recorded

/-! A test bench: a device whose calls are recorded and fail by plan. A refused call is on record like any
    other. -/

namespace EtherSwitch

/-- A device on a bench, with its record and its plan of faults. -/
abbrev Bench (I : Interface) (ε σ : Type) : Type := Recorded I (Faulty ε σ)

namespace Bench
variable {I : Interface} {ε σ : Type}

/-- A device put on the bench: nothing recorded, no call fails. -/
def start (s : σ) : Bench I ε σ := Recorded.fresh (Faulty.start .healthy s)

/-- The device under a new plan, which counts from the next call. -/
def replan (plan : FaultPlan ε) (b : Bench I ε σ) : Bench I ε σ := Recorded.modify (fun f => f.replan plan) b

/-- Changes the device from outside; that is no call. -/
def adjust (f : σ → σ) (b : Bench I ε σ) : Bench I ε σ := Recorded.modify (Faulty.modify f) b

end Bench

/-- The device as its users reach it on the bench. -/
def Device.onBench {I : Interface} {ε σ : Type} [Refusable I ε] (d : Device I σ) : Device I (Bench I ε σ) :=
  Device.recorded d.faulty

end EtherSwitch
