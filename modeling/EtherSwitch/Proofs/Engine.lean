import EtherSwitch.Proofs.Mdio
import EtherSwitch.Proofs.Spi
import EtherSwitch.Proofs.Store

/-! The two engines that reach the registers of the simulated chip. No sequence of accesses leaves a data
    register of the pseudo PHY loaded (`Simulation.Reachable.settled`), so an access of either engine does
    what it does on the bare store (`Engine.device_eq_store`). -/

namespace EtherSwitch

/-- A way to reach the registers of a chip. -/
inductive Engine where
  | mdio (settings : PseudoPhy.Settings)
  | spi
  deriving DecidableEq, Repr

namespace Engine
variable {σ : Type}

/-- The registers over the engine's bus, next to the number of operations that did not complete. -/
def across (mdio : Device MdioBus σ) (spi : Device SpiBus σ) : Engine → Device Registers (Nat × σ)
  | .mdio settings => settings.layer.device mdio
  | .spi => Device.within (fun s => ((), s.2)) (fun t s => (s.1, t.2)) (SpiFrames.layer.device spi)

/-- The registers of the simulated chip. -/
def device : Engine → Device Registers (Nat × Simulation) := across Simulation.mdio Simulation.spi

/-- The engine finds the simulated chip on its bus. -/
def Attached : Engine → Prop
  | .mdio settings => settings.phy = PseudoPhy.defaultPhy
  | .spi => True

/-- The engine's accesses succeed on a chip with the given faults: over MDIO operations complete or nobody
    minds, over SPI reads are acknowledged and the offset is not one of the bus interface itself. -/
def Serves (faults : Faults) (c : Registers.Call) : Engine → Prop
  | .mdio settings => settings.phy = PseudoPhy.defaultPhy ∧ (faults.stallMdio = false ∨ settings.strict = false)
  | .spi => faults.neverAckSpi = false ∧ c.address.location.offset ∉ SpiFrames.reserved

/-- The call is about a register that SPI reaches like any other. -/
def Plain (c : Registers.Call) : Prop := c.address.location.offset ∉ SpiFrames.reserved

theorem across_keeps {mdio : Device MdioBus σ} {spi : Device SpiBus σ} {K : σ → Prop}
    (hm : ∀ c s, K s → K (mdio c s).2)
    (hs : ∀ c s, K s → K (spi c s).2) (e : Engine) (c : Registers.Call) (n : Nat) {s : σ} (h : K s) :
    K (e.across mdio spi c (n, s)).2.2 := by
  cases e with
  | mdio settings =>
    exact Program.device_keeps (l := settings.layer) (fun c s _ => hm c s) c n (Program.calls_true _) h
  | spi => exact Program.device_keeps (l := SpiFrames.layer) (fun c s _ => hs c s) c () (Program.calls_true _) h

section
variable {s : Simulation}

theorem device_faults (e : Engine) (c : Registers.Call) (n : Nat) (s : Simulation) :
    (e.device c (n, s)).2.2.faults = s.faults :=
  across_keeps (K := fun u : Simulation => u.faults = s.faults) (fun c u h => (u.mdio_faults c).trans h)
    (fun c u h => (u.spi_faults c).trans h) e c n rfl

/-- An MDIO access that finds the chip leaves no data register of the pseudo PHY loaded, whatever it meets. -/
theorem settled_mdio {settings : PseudoPhy.Settings} (hphy : settings.phy = PseudoPhy.defaultPhy)
    (c : Registers.Call)
    (n : Nat) (s : Simulation) : ((mdio settings).device c (n, s)).2.2.mdioPort.Settled := by
  cases c with
  | read a =>
    obtain ⟨m, u, hu, -, -, hsettled⟩ := PseudoPhy.device_read hphy a n s
    rw [device, across, hu]
    exact hsettled
  | write a value =>
    obtain ⟨m, u, hu, -, -, hsettled⟩ := PseudoPhy.device_write hphy a value n s
    rw [device, across, hu]
    exact hsettled

/-- No access leaves a data register loaded that was not. -/
theorem settled_device (e : Engine) (c : Registers.Call) (n : Nat) (h : s.mdioPort.Settled) :
    (e.device c (n, s)).2.2.mdioPort.Settled := by
  cases e with
  | mdio settings =>
    by_cases hphy : settings.phy = PseudoPhy.defaultPhy
    · exact settled_mdio hphy c n s
    · -- An engine that misses the chip reaches none of its data registers.
      have hallow : settings.Allows fun c => ∀ u, (Simulation.mdio c u).2.mdioPort = u.mdioPort :=
        ⟨⟨fun _ u => by rw [(u.mdio_of_other hphy).1], fun _ _ => rfl⟩,
          fun _ word _ u => by rw [(u.mdio_of_other hphy).2]⟩
      refine Program.device_keeps (l := settings.layer) (K := fun u : Simulation => u.mdioPort.Settled)
        (fun c u hc hu => ?_) c n
          (PseudoPhy.calls_layer hallow c n fun _ _ u => by rw [(u.mdio_of_other hphy).2]) h
      rw [hc u]
      exact hu
  | spi =>
    refine Program.device_keeps (l := SpiFrames.layer) (K := fun u : Simulation => u.mdioPort.Settled)
      (fun c u _ hu => ?_) c () (Program.calls_true _) h
    rw [u.spi_mdioPort c]
    exact hu

end

/-! ### Accesses as steps of the store -/

section
variable {e : Engine} {s : Simulation}

/-- An access that the engine serves does on the chip what it does on the store. Data registers that were
    left loaded only matter to a write over MDIO. -/
theorem device_eq_store {c : Registers.Call} (hc : e.Serves s.faults c)
    (hready : (∃ a, c = .read a) ∨ e = .spi ∨ s.mdioPort.Settled) (n : Nat) :
    (e.device c (n, s)).1 = (Store.device c s.store).1 ∧
      (e.device c (n, s)).2.2.store = (Store.device c s.store).2 := by
  cases e with
  | mdio settings =>
    obtain ⟨hphy, hsoft⟩ := hc
    have hgood : ¬(s.faults.stallMdio = true ∧ settings.strict = true) := by
      rintro ⟨hstall, hstrict⟩
      rcases hsoft with h | h
      · exact Bool.false_ne_true (h.symm.trans hstall)
      · exact Bool.false_ne_true (h.symm.trans hstrict)
    cases c with
    | read a =>
      obtain ⟨m, u, hu, hstore, -, -⟩ := PseudoPhy.device_read hphy a n s
      rw [if_neg hgood] at hu
      exact ⟨congrArg Prod.fst hu, (congrArg (fun r => r.2.2.store) hu).trans hstore⟩
    | write a value =>
      obtain ⟨m, u, hu, hstore, -, -⟩ := PseudoPhy.device_write hphy a value n s
      have hsettled : s.mdioPort.Settled := by
        rcases hready with ⟨_, h⟩ | h | h
        · cases h
        · cases h
        · exact h
      rw [if_neg hgood] at hu
      exact ⟨congrArg Prod.fst hu, (congrArg (fun r => r.2.2.store) hu).trans (hstore hsettled)⟩
  | spi =>
    obtain ⟨hack, hplain⟩ := hc
    cases c with
    | read a =>
      obtain ⟨u, hu, hstore, -⟩ := SpiFrames.device_read hplain hack
      exact ⟨congrArg Prod.fst hu, (congrArg (fun r => r.2.2.store) hu).trans hstore⟩
    | write a value =>
      obtain ⟨u, hu, hstore, -⟩ := SpiFrames.device_write hplain value
      exact ⟨congrArg Prod.fst hu, (congrArg (fun r => r.2.2.store) hu).trans hstore⟩

end

/-- The chip holds the store and the faults, and no data register of its pseudo PHY is loaded that the engine
    would send along. -/
structure Mirrors (e : Engine) (faults : Faults) (s : Nat × Simulation) (t : Store) : Prop where
  store : s.2.store = t
  faults : s.2.faults = faults
  ready : e = .spi ∨ s.2.mdioPort.Settled

section
variable {e : Engine} {faults : Faults} {s : Nat × Simulation} {t : Store}

theorem device_mirrors {c : Registers.Call} (hc : e.Serves faults c) (h : e.Mirrors faults s t) :
    (e.device c s).1 = (Store.device c t).1 ∧ e.Mirrors faults (e.device c s).2 (Store.device c t).2 := by
  obtain ⟨n, s⟩ := s
  obtain ⟨rfl, rfl, hready⟩ := h
  obtain ⟨hanswer, hstore⟩ := device_eq_store hc (Or.inr hready) n
  exact ⟨hanswer, hstore, device_faults e c n s, hready.imp_right (settled_device e c n)⟩

theorem device_read_mirrors {a : Address} (hc : e.Serves faults (.read a)) (hstore : s.2.store = t)
    (hfaults : s.2.faults = faults) :
    (e.device (.read a) s).1 = (Store.device (.read a) t).1 ∧
      e.Mirrors faults (e.device (.read a) s).2 (Store.device (.read a) t).2 := by
  obtain ⟨n, s⟩ := s
  subst hstore hfaults
  obtain ⟨hanswer, hread⟩ := device_eq_store hc (Or.inl ⟨a, rfl⟩) n
  refine ⟨hanswer, hread, device_faults e _ n s, ?_⟩
  cases e with
  | mdio settings => exact Or.inr (settled_mdio hc.1 _ n s)
  | spi => exact Or.inl rfl

/-- A script whose accesses the engine serves runs on the chip as on the store. -/
theorem runOn_mirrors {α : Type} {p : Script α} (hp : Script.Uses (e.Serves faults) p)
    (h : e.Mirrors faults s t) :
    (Script.runOn e.device p s).1 = (Script.runOn Store.device p t).1 ∧
      e.Mirrors faults (Script.runOn e.device p s).2 (Script.runOn Store.device p t).2 :=
  Script.runOn_congr (fun _ _ _ hc hr => device_mirrors hc hr) hp h

/-- So does one that begins with a read, even if data registers were left loaded. -/
theorem runOn_mirrors_of_read {α : Type} {p : Script α} {a : Address}
    {k : Except Error (BitVec 64) → Program Registers (Except Error α)} (hread : p.run = .ask (.read a) k)
    (hp : Script.Uses (e.Serves faults) p) (hstore : s.2.store = t) (hfaults : s.2.faults = faults) :
    (Script.runOn e.device p s).1 = (Script.runOn Store.device p t).1 ∧
      e.Mirrors faults (Script.runOn e.device p s).2 (Script.runOn Store.device p t).2 := by
  have hcalls := hp.calls
  rw [Script.runOn, Script.runOn, hread, Program.run_ask, Program.run_ask]
  rw [hread] at hcalls
  obtain ⟨hanswer, hmirrors⟩ := device_read_mirrors hcalls.1 hstore hfaults
  rw [hanswer]
  exact Program.run_congr_of_calls (fun _ _ _ hc hr => device_mirrors hc hr) (hcalls.2 _) hmirrors

end

end Engine

/-- Nothing is wrong with the simulated chip. -/
structure Simulation.FaultFree (s : Simulation) : Prop where
  completes : s.faults.stallMdio = false
  acknowledges : s.faults.neverAckSpi = false
  forwards : s.store.forwardStuck = false

/-- An engine that finds the chip serves all plain accesses to it if nothing is wrong with it. -/
theorem Engine.Attached.serves {e : Engine} (he : e.Attached) {s : Simulation} (hs : s.FaultFree)
    {c : Registers.Call} (hc : Plain c) : e.Serves s.faults c := by
  cases e with
  | mdio settings => exact ⟨he, Or.inl hs.completes⟩
  | spi => exact ⟨hs.acknowledges, hc⟩

/-- What accesses and changes of registers make of a simulated chip that nobody has accessed yet. -/
inductive Simulation.Reachable : Simulation → Prop where
  | start (faults : Faults) (store : Store) : Reachable ⟨faults, store, {}, {}, 0⟩
  | access (e : Engine) (c : Registers.Call) (n : Nat) {s : Simulation} :
      Reachable s → Reachable (e.device c (n, s)).2.2
  | setRegister (l : Location) (value : BitVec 64) {s : Simulation} :
    Reachable s → Reachable (s.setRegister l value)

namespace Simulation

theorem reachable_new (m : Model) : (new m).Reachable := .start m.faults m.store

theorem Reachable.settled {s : Simulation} (h : s.Reachable) : s.mdioPort.Settled := by
  induction h with
  | start faults store =>
    intro c hc
    rw [Vector.toList_replicate] at hc
    rw [List.eq_of_mem_replicate hc]
  | access e c n _ ih => exact Engine.settled_device e c n ih
  | setRegister l value _ ih => exact ih

end Simulation

/-- A script of plain accesses does to the chip what it does to the store. -/
theorem Engine.runOn_does {α : Type} {e : Engine} {s : Simulation} (he : e.Attached) (hs : s.Reachable)
    (hfree : s.FaultFree) {p : Script α} (hp : Script.Uses Plain p) {a : α} {ws : List RegisterWrite}
    (hdoes : Store.Does p s.store a ws) (n : Nat) :
    (Script.runOn e.device p (n, s)).1 = .ok a ∧
      (Script.runOn e.device p (n, s)).2.2.store = s.store.writeAll ws := by
  obtain ⟨hanswer, hend⟩ :=
    runOn_mirrors (s := (n, s)) (hp.mono fun _ => he.serves hfree) ⟨rfl, rfl, Or.inr hs.settled⟩
  rw [hdoes.run] at hanswer hend
  exact ⟨hanswer, hend.store⟩

end EtherSwitch
