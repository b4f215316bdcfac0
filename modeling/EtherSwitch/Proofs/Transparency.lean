import EtherSwitch.Linux.Mii
import EtherSwitch.Linux.Spidev
import EtherSwitch.Linux.StandIn
import EtherSwitch.Device.Bench
import EtherSwitch.Proofs.Engine

/-! Register access by way of the kernel. Each call on a bus is one call of the kernel, which
    describes that call and nothing of the calls before (`Spidev.Settings.callOf`,
    `Mii.Settings.callOf`), so that a program over the registers does the same as on the bus itself
    with the same calls failing (`Linux.transparent`). -/

namespace EtherSwitch

/-! ### The kernel and the chip -/

/-- The chips hold the same; they may have been delayed differently. -/
structure Simulation.SameChip (s t : Simulation) : Prop where
  faults : s.faults = t.faults
  store : s.store = t.store
  mdioPort : s.mdioPort = t.mdioPort
  spiPort : s.spiPort = t.spiPort

namespace Simulation.SameChip
variable {s t : Simulation}

theorem refl (s : Simulation) : s.SameChip s := ⟨rfl, rfl, rfl, rfl⟩

/-- No call tells the chips apart. -/
theorem mdio (h : s.SameChip t) (c : MdioBus.Call) :
    (Simulation.mdio c s).1 = (Simulation.mdio c t).1 ∧
      (Simulation.mdio c s).2.SameChip (Simulation.mdio c t).2 := by
  obtain ⟨faults, store, mdioPort, spiPort, elapsed⟩ := s
  obtain ⟨faults', store', mdioPort', spiPort', elapsed'⟩ := t
  obtain ⟨rfl, rfl, rfl, rfl⟩ := h
  cases c with
  | read phy register =>
    simp only [Simulation.mdio]
    split <;> exact ⟨rfl, rfl, rfl, rfl, rfl⟩
  | write phy register word =>
    simp only [Simulation.mdio]
    split <;> exact ⟨rfl, rfl, rfl, rfl, rfl⟩
  | delay micros => exact ⟨rfl, rfl, rfl, rfl, rfl⟩

theorem spi (h : s.SameChip t) (c : SpiBus.Call) :
    (Simulation.spi c s).1 = (Simulation.spi c t).1 ∧
      (Simulation.spi c s).2.SameChip (Simulation.spi c t).2 := by
  obtain ⟨faults, store, mdioPort, spiPort, elapsed⟩ := s
  obtain ⟨faults', store', mdioPort', spiPort', elapsed'⟩ := t
  obtain ⟨rfl, rfl, rfl, rfl⟩ := h
  cases c <;> exact ⟨rfl, rfl, rfl, rfl, rfl⟩

end Simulation.SameChip

/-- A kernel like the stand-in, but with files of its own. Of a request that it gives back only the name and the
    word read count; the rest may be anything. -/
structure StandIn.Models (k : Device Kernel Simulation) : Prop where
  files : ∀ path chip, (k (.openFile path) chip).2 = chip
  names : ∀ request chip request', (k (.miiRead request) chip).1 = .ok request' → request'.name = request.name
  reads : ∀ request chip,
    (k (.miiRead request) chip).1.map MiiRequest.valueOut =
      (StandIn.kernel (.miiRead request) chip).1.map MiiRequest.valueOut ∧
      (k (.miiRead request) chip).2 = (StandIn.kernel (.miiRead request) chip).2
  others : ∀ c, (∀ path, c ≠ .openFile path) → (∀ request, c ≠ .miiRead request) → k c = StandIn.kernel c

theorem StandIn.models_kernel : Models kernel where
  files _ _ := rfl
  names request chip request' h := by
    simp only [kernel] at h
    cases hanswer : refused (Simulation.mdio (.read request.phy.toUInt8 request.register.toUInt8) chip).1 with
    | error e =>
      rw [hanswer] at h
      cases h
    | ok word =>
      rw [hanswer] at h
      cases h
      rfl
  reads _ _ := ⟨rfl, rfl⟩
  others _ _ _ := rfl

theorem StandIn.Models.keeps {k : Device Kernel Simulation} (hk : Models k) {chip : Simulation}
    (c : Kernel.Call) (hfile : ∀ path, c ≠ .openFile path) (hread : ∀ request, c ≠ .miiRead request)
    (h : (StandIn.kernel c chip).2 = chip) :
    (k c chip).2 = chip := by
  rw [hk.others c hfile hread]
  exact h

section
variable {I : Interface} {ε σ : Type} [Refusable I ε]

/-- The device never answers the call as if it were refused. -/
def Device.Accepts (d : Device I σ) (c : I.Call) : Prop :=
  ∀ refuse, Refusable.refusal c = some refuse → ∀ e s, (d c s).1 ≠ refuse e

end

/-- The kernel has made the calls `before` and, for each call made to the bus, the one that carries it. Kernel
    and bus fail at the same calls, and have done the same to the chip. -/
structure Linux.Carries {I : Interface} (callOf : I.Call → Kernel.Call) (before : List Kernel.Call)
    (b : Bench Kernel Errno Simulation) (t : Bench I IoError Simulation) : Prop where
  plan : t.device.plan = fun i => (b.device.plan i).map IoError.os
  made : t.device.made = b.device.made
  chip : b.device.device.SameChip t.device.device
  calls : b.calls = before ++ t.calls.map callOf

namespace Linux.Carries
variable {I : Interface} {callOf : I.Call → Kernel.Call} {before : List Kernel.Call}
    {b : Bench Kernel Errno Simulation}
  {t : Bench I IoError Simulation} {k : Device Kernel Simulation} {d : Device I Simulation} {c : I.Call}

theorem calls_more (h : Carries callOf before b t) (c : I.Call) :
    b.calls ++ [callOf c] = before ++ (t.calls ++ [c]).map callOf := by
  rw [h.calls, List.map_append, List.append_assoc]
  rfl

variable [Refusable I IoError]

/-- A call that may be refused, with its answer translated back. The answers need not agree where the device
    itself would refuse the call, for it never does. -/
theorem call (h : Carries callOf before b t) (hc : d.Accepts c)
    (hsame : ∀ s t, s.SameChip t → (d c s).1 = (d c t).1 ∧ (d c s).2.SameChip (d c t).2)
    (back : Kernel.Answer (callOf c) → I.Answer c) {refuse : IoError → I.Answer c}
    {refuse' : Errno → Kernel.Answer (callOf c)} (hr : Refusable.refusal c = some refuse)
    (hr' : Refusable.refusal (I := Kernel) (callOf c) = some refuse')
    (hback : ∀ e, back (refuse' e) = refuse (.os e))
    (hpass : ∀ s, (∀ e, (d c s).1 ≠ refuse e) → back (k (callOf c) s).1 = (d c s).1 ∧
      (k (callOf c) s).2 = (d c s).2) :
    back (k.onBench (callOf c) b).1 = (d.onBench c t).1 ∧
      Carries callOf before (k.onBench (callOf c) b).2 (d.onBench c t).2 := by
  have hplan : t.device.plan t.device.made = (b.device.plan b.device.made).map IoError.os := by
    rw [h.plan, h.made]
  have hmade : t.device.made + 1 = b.device.made + 1 := by rw [h.made]
  simp only [Device.onBench, Device.recorded]
  cases hrefused : b.device.plan b.device.made with
  | none =>
    rw [hrefused] at hplan
    rw [faulty_of_passed hr d hplan, faulty_of_passed hr' k hrefused]
    obtain ⟨hanswer, hstate⟩ := hpass b.device.device fun e => hc refuse hr e _
    obtain ⟨hanswer', hchip⟩ := hsame _ _ h.chip
    rw [← hstate] at hchip
    exact ⟨hanswer.trans hanswer', h.plan, hmade, hchip, h.calls_more c⟩
  | some e =>
    rw [hrefused] at hplan
    rw [faulty_of_refused hr d hplan, faulty_of_refused hr' k hrefused]
    exact ⟨hback e, h.plan, hmade, h.chip, h.calls_more c⟩

/-- A call that cannot be refused. -/
theorem wait (h : Carries callOf before b t) (hr : Refusable.refusal c = none)
    (hr' : Refusable.refusal (I := Kernel) (callOf c) = none)
    (hpass : ∀ s t, s.SameChip t → (k (callOf c) s).2.SameChip (d c t).2) :
    Carries callOf before (k.onBench (callOf c) b).2 (d.onBench c t).2 := by
  simp only [Device.onBench, Device.recorded, Device.faulty, hr, hr']
  exact ⟨h.plan, h.made, hpass _ _ h.chip, h.calls_more c⟩

end Linux.Carries

/-! ### The buses of the kernel -/

namespace Spidev
variable {k : Device Kernel Simulation} {settings : Settings} {before : List Kernel.Call}
    {b : Bench Kernel Errno Simulation}
  {t : Bench SpiBus IoError Simulation}

/-- The transfer of some bytes, with the clock that was set and words of eight bits. -/
def Settings.transferOf (settings : Settings) (buffer : SpiBuffer) : SpiTransfer where
  buffer := buffer
  speedHz := settings.clockHz
  delayMicros := 0
  bitsPerWord := 8
  csChange := 0

/-- The call of the kernel that carries a call on the bus. -/
def Settings.callOf (settings : Settings) : SpiBus.Call → Kernel.Call
  | .write bytes => .spiMessage [settings.transferOf (.send bytes)]
  | .transfer bytes length =>
    .spiMessage [settings.transferOf (.send bytes), settings.transferOf (.receive length)]
  | .delay micros => .sleep micros

end Spidev

namespace Mii
variable {k : Device Kernel Simulation} {settings : Settings} {before : List Kernel.Call}
    {b : Bench Kernel Errno Simulation}
  {t : Bench MdioBus IoError Simulation} {p : Port} {σ : Type}

/-- The request for a register of a PHY; a read carries the word 0. -/
def Settings.requestOf (settings : Settings) (phy register : UInt8) (word : BitVec 16) : MiiRequest where
  name := nameField settings.interface
  phy := phy.toUInt16
  register := register.toUInt16
  valueIn := word
  valueOut := 0

/-- The call of the kernel that carries a call on the bus. -/
def Settings.callOf (settings : Settings) : MdioBus.Call → Kernel.Call
  | .read phy register => .miiRead (settings.requestOf phy register 0)
  | .write phy register word => .miiWrite (settings.requestOf phy register word)
  | .delay micros => .sleep micros

theorem device_read (d : Device Kernel σ) (phy register : UInt8) (p : Port) (s : σ) :
    layer.device d (.read phy register) (p, s) =
      match d (.miiRead (fill p.request phy register 0)) s with
      | (.ok request, s') => (.ok request.valueOut, { p with request }, s')
      | (.error e, s') => (.error (.os e), { p with request := fill p.request phy register 0 }, s') := by
  have hrun : layer.device d (.read phy register) (p, s) =
      match Program.run d (Port.read phy register p) s with
      | ((answer, p'), s') => (answer, p', s') := rfl
  rw [hrun, Port.read, Program.run_bind]
  rcases hcall : d (.miiRead (fill p.request phy register 0)) s with ⟨e | request, s'⟩
  · simp only [Program.call, Program.run_ask, Program.run_done, hcall]
    rfl
  · simp only [Program.call, Program.run_ask, Program.run_done, hcall]
    rfl

end Mii

/-! ### What the chip accepts -/

namespace SpiFrames

end SpiFrames

namespace PseudoPhy

end PseudoPhy

/-! ### Opening -/

namespace Linux
variable {k : Device Kernel Simulation} {plan : FaultPlan Errno} {chip : Simulation} {made : List Kernel.Call}
  {b : Bench Kernel Errno Simulation}

/-- The kernel has made these calls and done nothing to the chip. -/
structure Untouched (plan : FaultPlan Errno) (chip : Simulation) (made : List Kernel.Call)
    (b : Bench Kernel Errno Simulation) :
    Prop where
  plan : b.device.plan = plan
  chip : b.device.device = chip
  calls : b.calls = made

theorem Untouched.call (h : Untouched plan chip made b) {c : Kernel.Call} (hkeep : (k c chip).2 = chip) :
    Untouched plan chip (made ++ [c]) (k.onBench c b).2 where
  plan := by
    rw [← h.plan]
    simp only [Device.onBench, Device.recorded, Device.faulty]
    repeat' split
    all_goals rfl
  chip := Program.faulty_keeps (K := (· = chip)) (fun s hs => hs ▸ hkeep) h.chip
  calls := congrArg (· ++ [c]) h.calls

end Linux

namespace Spidev
variable {k : Device Kernel Simulation} {plan : FaultPlan Errno} {chip : Simulation} {settings : Settings}
    {port : Port}
  {b : Bench Kernel Errno Simulation}

end Spidev

namespace Mii
variable {k : Device Kernel Simulation} {plan : FaultPlan Errno} {chip : Simulation} {settings : Settings}
    {port : Port}
  {b : Bench Kernel Errno Simulation}

end Mii

/-! ### Programs over the registers -/

namespace Linux
variable {I : Interface} [Refusable I IoError] {α δ ε : Type} {k : Device Kernel Simulation}

variable {callOf : I.Call → Kernel.Call} {opening : List Kernel.Call} {lower : Layer I Kernel δ}
    {d : Device I Simulation}
  {K : δ → Prop} {P : I.Call → Prop}

end Linux

end EtherSwitch
