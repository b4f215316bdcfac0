import EtherSwitch.Program

/-! Devices whose calls fail by plan. A refused call has no effect on the device; calls that cannot
    fail, such as delays, are never refused and do not count. -/

namespace EtherSwitch

/-- An interface whose calls may be refused with an error of type `ε`. -/
class Refusable (I : Interface) (ε : outParam Type) where
  /-- How a call answers when it is refused, or `none` for a call that cannot be. -/
  refusal (c : I.Call) : Option (ε → I.Answer c)

/-- Which calls fail: the error that call number `n` fails with, if it does. -/
abbrev FaultPlan (ε : Type) : Type := Nat → Option ε

namespace FaultPlan
variable {ε : Type}

/-- No call fails. -/
def healthy : FaultPlan ε := fun _ => none

/-- All calls fail but the first `n`. -/
def after (n : Nat) (e : ε) : FaultPlan ε := fun i => if n ≤ i then some e else none

end FaultPlan

/-- A device, the plan of its faults and the number of refusable calls made under the plan. -/
structure Faulty (ε σ : Type) where
  plan : FaultPlan ε
  made : Nat
  device : σ

namespace Faulty
variable {ε σ : Type}

/-- A device under a plan, which counts from the next call. -/
def start (plan : FaultPlan ε) (s : σ) : Faulty ε σ := ⟨plan, 0, s⟩

/-- The same device under a new plan. -/
def replan (s : Faulty ε σ) (plan : FaultPlan ε) : Faulty ε σ := start plan s.device

/-- Changes the device from outside; that is no call. -/
def modify (f : σ → σ) (s : Faulty ε σ) : Faulty ε σ := { s with device := f s.device }

end Faulty

variable {I : Interface} {ε σ : Type} [Refusable I ε]

/-- The device that refuses the calls that the plan names. -/
def Device.faulty (d : Device I σ) : Device I (Faulty ε σ) := fun c s =>
  match Refusable.refusal c with
  | none =>
    match d c s.device with
    | (a, s') => (a, { s with device := s' })
  | some refuse =>
    match s.plan s.made with
    | some e => (refuse e, { s with made := s.made + 1 })
    | none =>
      match d c s.device with
      | (a, s') => (a, { s with made := s.made + 1, device := s' })

section
variable {c : I.Call} {refuse : ε → I.Answer c} (hr : Refusable.refusal c = some refuse) (d : Device I σ)
    {s : Faulty ε σ}
include hr

theorem faulty_of_passed (h : s.plan s.made = none) :
    d.faulty c s = ((d c s.device).1, { s with made := s.made + 1, device := (d c s.device).2 }) := by
  simp only [Device.faulty, hr, h]

theorem faulty_of_refused {e : ε} (h : s.plan s.made = some e) :
    d.faulty c s = (refuse e, { s with made := s.made + 1 }) := by
  simp only [Device.faulty, hr, h]

end

end EtherSwitch
