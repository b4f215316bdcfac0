import EtherSwitch.Proofs.Erasing
import EtherSwitch.Proofs.Identity
import EtherSwitch.Proofs.Interrupting

/-! Applying a configuration or resetting again after the bus failed on the way. Both begin with a read, which
    takes whatever the pseudo PHY was left loaded with, and find a chip that they make the same of as of the one
    from before (`Engine.runOn_again`). So a second attempt succeeds and leaves what one in one go leaves
    (`Switch.retry_completes`). -/

namespace EtherSwitch
open Script

/-! ### Scripts that read first -/

/-- The first access of the script is a read. -/
def Script.ReadsFirst {α : Type} (p : Script α) : Prop := ∃ a k, p.run = .ask (.read a) k

section
variable {α β : Type}

theorem Script.readsFirst_read8 (l : Location) : (read8 l).ReadsFirst := ⟨_, _, rfl⟩

theorem Script.ReadsFirst.bind {p : Script α} (h : p.ReadsFirst) (f : α → Script β) : (p >>= f).ReadsFirst := by
  obtain ⟨a, k, hrun⟩ := h
  refine ⟨a, fun answer => k answer >>= ExceptT.bindCont f, ?_⟩
  show p.run >>= ExceptT.bindCont f = _
  rw [hrun]
  rfl

end

theorem Switch.readsFirst_applyConfig {c : Config} (h : c.WellFormed) : (applyConfig c).ReadsFirst := by
  rw [applyConfig_eq h]
  exact (readsFirst_read8 _).bind _

theorem readsFirst_reset (chip : Chip) : (chip.family.reset chip).ReadsFirst := by
  have henable : (enableForwarding chip).ReadsFirst := (readsFirst_read8 _).bind _
  cases chip.family with
  | fastEthernet => exact henable
  | gigabit => exact henable.bind _

namespace Engine
variable {α : Type} {e e₁ e₂ e₃ : Engine} {s : Simulation}

/-- A script of plain accesses that reads first does to the chip what it does to the store if the engine serves
    those, even if data registers were left loaded. -/
theorem runOn_does_of_readsFirst {faults : Faults} (hserves : ∀ call, Plain call → e.Serves faults call)
    (hfaults : s.faults = faults)
    {p : Script α} (hp : Script.Uses Plain p) (hread : p.ReadsFirst) {a : α} {ws : List RegisterWrite}
    (hdoes : Store.Does p s.store a ws) (n : Nat) :
    (runOn e.device p (n, s)).1 = .ok a ∧ (runOn e.device p (n, s)).2.2.store = s.store.writeAll ws := by
  obtain ⟨_, _, hrun⟩ := hread
  obtain ⟨hanswer, hend⟩ := runOn_mirrors_of_read (s := (n, s)) hrun (hp.mono hserves) rfl hfaults
  rw [hdoes.run] at hanswer hend
  exact ⟨hanswer, hend.store⟩

/-- A script that reads first can be run again after the bus failed on the way, if its writes after the first
    ones of them come to the same as its writes from the start. -/
theorem runOn_again (he₁ : e₁.Attached) (he₂ : e₂.Attached) (he₃ : e₃.Attached) (hs : s.Reachable)
    (hfree : s.FaultFree)
    {chip : Chip} (hchip : s.store.chip = some chip) {p : Script α} (hp : Script.Uses Plain p)
    (hread : p.ReadsFirst) {a : α}
    {ws : Store → List RegisterWrite} (hdoes : ∀ t : Store, t.Healthy chip → Store.Does p t a (ws t))
    (hsame : ∀ done, done <+: ws s.store →
      ((s.store.writeAll done).writeAll (ws (s.store.writeAll done))).SameContent
        (s.store.writeAll (ws s.store)))
    (plan : FaultPlan IoError) (n₁ n₂ n₃ : Nat) :
    (runOn e₂.device p (n₂, (runOn e₁.faulty p (n₁, .start plan s)).2.2.device)).1 = .ok a ∧
      (runOn e₃.device p (n₃, s)).1 = .ok a ∧
      (runOn e₂.device p (n₂, (runOn e₁.faulty p (n₁, .start plan s)).2.2.device)).2.2.store.SameContent
        (runOn e₃.device p (n₃, s)).2.2.store := by
  have hhealthy : s.store.Healthy chip := ⟨hchip, hfree.forwards⟩
  obtain ⟨done, hdone, hbroken⟩ := runOn_faulty_does he₁ hs hfree hp (hdoes _ hhealthy) plan n₁
  have hfaults := Program.run_keeps (d := e₁.faulty) (K := fun v => v.2.device.faults = s.faults)
    (fun call v _ hv => (faulty_faults e₁ call v).trans hv) p.run.calls_true (s := (n₁, .start plan s)) rfl
  have hbroken_faults : (runOn e₁.faulty p (n₁, .start plan s)).2.2.device.faults = s.faults := hfaults
  generalize (runOn e₁.faulty p (n₁, .start plan s)).2.2.device = broken at *
  -- The chip that the failing bus leaves is as fault-free as before, so a second attempt is served.
  have hhealthy' : broken.store.Healthy chip := hbroken ▸ hhealthy.writeAll done
  have hfree' : broken.FaultFree :=
    ⟨hbroken_faults ▸ hfree.completes, hbroken_faults ▸ hfree.acknowledges, hhealthy'.forwards⟩
  obtain ⟨hagain, hstore⟩ :=
    runOn_does_of_readsFirst (fun _ => he₂.serves hfree') rfl hp hread (hdoes _ hhealthy') n₂
  obtain ⟨hwhole, hstore'⟩ := runOn_does he₃ hs hfree hp (hdoes _ hhealthy) n₃
  rw [hstore, hstore', hbroken]
  exact ⟨hagain, hwhole, hsame done hdone⟩

end Engine

namespace Switch
variable {c : Config} {e₁ e₂ e₃ : Engine} {s : Simulation}

/-- However the bus fails while a configuration is applied or the switch is reset, doing the same again over any
    engine succeeds and leaves the configuration and the content of the chip as doing it once in one go. -/
theorem retry_completes (he₁ : e₁.Attached) (he₂ : e₂.Attached) (he₃ : e₃.Attached) (hc : c.Reachable)
    (hs : s.Reachable)
    (hfree : s.FaultFree) (hchip : s.store.chip = some c.chip) {op : Operation} (hop : op.controls = true)
    {plan : FaultPlan IoError} {n₁ : Nat} {answer : Except Error op.Result} {c' : Config}
    {u : Nat × Faulty IoError Simulation}
    (hcut : layer.device e₁.faulty op (c, n₁, .start plan s) = (answer, c', u)) (n₂ n₃ : Nat) :
    ∃ result, (layer.device e₂.device op (c', n₂, u.2.device)).1 = .ok result ∧
      (layer.device e₃.device op (c, n₃, s)).1 = .ok result ∧
      (layer.device e₂.device op (c', n₂, u.2.device)).2.1 = (layer.device e₃.device op (c, n₃, s)).2.1 ∧
      (layer.device e₂.device op (c', n₂, u.2.device)).2.2.2.store.SameContent
        (layer.device e₃.device op (c, n₃, s)).2.2.2.store := by
  have hwell := hc.wellFormed
  have hhealthy : s.store.Healthy c.chip := ⟨hchip, hfree.forwards⟩
  cases op with
  | applyConfig =>
    rw [device_applyConfig] at hcut
    obtain ⟨-, hrest⟩ := Prod.mk.inj hcut
    obtain ⟨rfl, rfl⟩ := Prod.mk.inj hrest
    have hsame : ∀ done, done <+: c.writes s.store → _ := fun done hdone =>
      ((hwell.applyAlike_partway hhealthy hdone).sameContent hwell (hhealthy.writeAll done) hhealthy).2
    obtain ⟨hagain, hwhole, hsame⟩ := Engine.runOn_again he₁ he₂ he₃ hs hfree hchip (uses_applyConfig hwell)
      (readsFirst_applyConfig hwell) (fun t _ => does_applyConfig hwell t) hsame plan n₁ n₂ n₃
    rw [device_applyConfig, device_applyConfig]
    exact ⟨(), hagain, hwhole, rfl, hsame⟩
  | resetSwitch =>
    rw [device_resetSwitch] at hcut
    obtain ⟨-, hrest⟩ := Prod.mk.inj hcut
    obtain ⟨rfl, rfl⟩ := Prod.mk.inj hrest
    have hsame : ∀ done, done <+: resetWrites c s.store → _ := fun done hdone =>
      (resetAlike_partway hwell hhealthy .resetSwitch hdone).sameContent (hhealthy.writeAll done) hhealthy
    obtain ⟨hagain, hwhole, hsame⟩ := Engine.runOn_again he₁ he₂ he₃ hs hfree hchip (uses_resetSwitch c)
      ((readsFirst_reset _).bind _) (fun t ht => does_resetSwitch ht) hsame plan n₁ n₂ n₃
    rw [device_resetSwitch, device_resetSwitch]
    exact ⟨(), hagain, hwhole, rfl, hsame⟩
  | _ => cases hop

/-- Applying a configuration over MDIO while the bus fails from the seventh call on, when the first value to
    write is loaded and the operation that takes it is not issued yet. -/
def halfLoaded : Except Error Unit × Config × Nat × Faulty IoError Simulation :=
  layer.device (Engine.mdio {}).faulty .applyConfig
    (pair, 0, .start (.after 6 .injected) (.new (.ofChip .bcm5325E)))

theorem retry_completes_halfLoaded :
    halfLoaded = (.error (.io .injected), pair, halfLoaded.2.2) ∧
      halfLoaded.2.2.2.device.mdioPort.pending = [0xe0, 0, 0, 0] ∧
      ∃ result : Unit,
        (layer.device (Engine.mdio {}).device .applyConfig (pair, 1, halfLoaded.2.2.2.device)).1 = .ok result ∧
        (layer.device Engine.spi.device .applyConfig (pair, 0, .new (.ofChip .bcm5325E))).1 = .ok result ∧
        (layer.device (Engine.mdio {}).device .applyConfig (pair, 1, halfLoaded.2.2.2.device)).2.1 =
          (layer.device Engine.spi.device .applyConfig (pair, 0, .new (.ofChip .bcm5325E))).2.1 ∧
        (layer.device (Engine.mdio {}).device .applyConfig
          (pair, 1, halfLoaded.2.2.2.device)).2.2.2.store.SameContent
          (layer.device Engine.spi.device .applyConfig (pair, 0, .new (.ofChip .bcm5325E))).2.2.2.store := by
  have hcut : halfLoaded = (.error (.io .injected), pair, halfLoaded.2.2) := rfl
  have hmdio : (Engine.mdio {}).Attached := rfl
  have hspi : Engine.spi.Attached := trivial
  have hop : Operation.applyConfig.controls = true := rfl
  exact ⟨hcut, rfl, retry_completes hmdio hmdio hspi pair_reachable (Simulation.reachable_new _)
    ⟨rfl, rfl, rfl⟩ rfl hop hcut 1 0⟩

end Switch

end EtherSwitch
