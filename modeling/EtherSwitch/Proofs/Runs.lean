import EtherSwitch.Proofs.Configuration
import EtherSwitch.Register.Bank
import Mathlib.Algebra.Group.Nat.Defs

/-! Runs of the operations of a switch, over registers that may answer anything and fail at any access.
    Every configuration on the way fits the chip that was found when the switch was brought up
    (`Switch.serve_wellFormed`). -/

namespace EtherSwitch
open Script

namespace Switch
variable {σ : Type} {d : Device Registers σ} {s t : σ} {c c' : Config}

/-- The switch after some operations, one after the other, whether they succeed or not. -/
def serve (d : Device Registers σ) (ops : List Operation) (s : Config × σ) : Config × σ :=
  ops.foldl (fun s op => (layer.device d op s).2) s

theorem serve_keeps {K : Config × σ → Prop} {P : Operation → Prop}
    (h : ∀ op s, P op → K s → K (layer.device d op s).2)
    {ops : List Operation} (hops : ∀ op ∈ ops, P op) {s : Config × σ} (hs : K s) : K (serve d ops s) := by
  induction ops generalizing s with
  | nil => exact hs
  | cons op ops ih =>
    exact ih (fun op' hop => hops op' (List.mem_cons_of_mem op hop)) (h op s (hops op List.mem_cons_self) hs)

theorem serve_append (d : Device Registers σ) (ops more : List Operation) (s : Config × σ) :
    serve d (ops ++ more) s = serve d more (serve d ops s) := List.foldl_append

theorem serve_singleton (d : Device Registers σ) (op : Operation) (s : Config × σ) :
    serve d [op] s = (layer.device d op s).2 := rfl

/-- The operations that may change the configuration. -/
def Operation.configures : Operation → Bool
  | .setVlanEnabled _ | .setVlanBase _ | .setPortPvid _ _ | .setVlanPorts _ _ | .resetSwitch => true
  | _ => false

theorem after_of_not_configures {op : Operation} (h : op.configures = false) (c : Config) : op.after c = c := by
  cases op with
  | setVlanEnabled on => cases h
  | setVlanBase base => cases h
  | setPortPvid port vid => cases h
  | setVlanPorts index members => cases h
  | resetSwitch => cases h
  | _ => rfl

/-! ### The chip stays the one that was found -/

theorem identity_setVlanBase {base : UInt16} (h : c.setVlanBase base = .ok c') : c'.identity = c.identity := by
  unfold Config.setVlanBase at h
  split at h
  · cases h
  · split at h
    · cases h
    · obtain rfl := Except.ok.inj h
      rfl

theorem identity_setPortPvid {port : UInt8} {vid : UInt16} (h : c.setPortPvid port vid = .ok c') :
    c'.identity = c.identity := by
  unfold Config.setPortPvid Config.checkPort at h
  split at h
  · split at h
    · cases h
    · obtain rfl := Except.ok.inj h
      rfl
  · cases h

theorem identity_after (op : Operation) (c : Config) : (op.after c).identity = c.identity := by
  have haccepted : ∀ {x : Except Error Config}, (∀ c', x = .ok c' → c'.identity = c.identity) →
      (accepted c x).identity = c.identity := by
    intro x hx
    cases x with
    | ok c' => exact hx c' rfl
    | error e => rfl
  cases op with
  | setVlanBase base => exact haccepted fun _ h => identity_setVlanBase h
  | setPortPvid port vid => exact haccepted fun _ h => identity_setPortPvid h
  | setVlanPorts index members =>
    refine haccepted fun c' h => ?_
    obtain ⟨-, -, -, rfl⟩ := Config.setVlanPorts_eq_ok h
    rfl
  | _ => rfl

theorem identity_serve (d : Device Registers σ) (ops : List Operation) (c : Config) (s : σ) :
    (serve d ops (c, s)).1.identity = c.identity := by
  refine serve_keeps (P := fun _ => True) (K := fun u => u.1.identity = c.identity) ?_ (fun _ _ => trivial) rfl
  intro op u _ hu
  rw [config_eq_after, identity_after, hu]

theorem reachable_serve (d : Device Registers σ) (ops : List Operation) (hc : c.Reachable) (s : σ) :
    (serve d ops (c, s)).1.Reachable :=
  serve_keeps (P := fun _ => True) (K := fun u => u.1.Reachable) (fun op u _ hu => hu.perform d op u.2)
    (fun _ _ => trivial) hc

/-- Bringing a switch up that succeeds has found the chip and starts from its default configuration. -/
theorem register_eq_ok (h : runOn d register s = (.ok c, t)) :
    ∃ identity, (runOn d probe s).1 = .ok identity ∧ c = .initial identity := by
  rw [register] at h
  obtain ⟨identity, u, hprobe, h⟩ := ok_of_runOn_bind h
  obtain ⟨_, v, -, hfresh⟩ := ok_of_runOn_bind h
  exact ⟨identity, congrArg Prod.fst hprobe, (Except.ok.inj (congrArg Prod.fst hfresh)).symm⟩

end Switch

namespace Config.WellFormed
variable {c : Config}

/-- As a number, the set of members of an entry has one digit for each port of the chip. -/
theorem toNat_members_lt (h : c.WellFormed) {e : VlanEntry} (he : e ∈ c.vlans) :
    e.members.toNat < 2 ^ c.chip.numPorts.toNat := by
  refine Nat.lt_pow_two_of_testBit _ fun i hi => ?_
  exact h.members e he i hi

/-- The largest multiple of the table size that is a VLAN id is `0xff0`. -/
theorem vlanBase_le (h : c.WellFormed) : c.vlanBase.toNat ≤ 0xff0 := by
  have hmultiple := h.base
  have hle : c.vlanBase.toNat ≤ 4095 := UInt16.le_iff_toNat_le.mp h.base_le
  omega

end Config.WellFormed

namespace Switch
variable {σ : Type} {d : Device Registers σ} {s t : σ} {c : Config}

/-- After any operations on any registers, whether they succeed or not, the configuration is a well-formed one
    for the chip that was found. Only setters and resets change it, and a reset makes it the default one even
    if the registers fail. -/
theorem serve_wellFormed (h : runOn d register s = (.ok c, t)) (ops : List Operation) :
    (runOn d probe s).1 = .ok (serve d ops (c, t)).1.identity ∧
      (serve d ops (c, t)).1.WellFormed ∧
      (∀ e ∈ (serve d ops (c, t)).1.vlans, e.members.toNat < 2 ^ (serve d ops (c, t)).1.chip.numPorts.toNat) ∧
      (serve d ops (c, t)).1.vlanBase.toNat ≤ 0xff0 ∧
      (∀ op : Operation, op.configures = false →
        (layer.device d op (serve d ops (c, t))).2.1 = (serve d ops (c, t)).1) ∧
      (layer.device d .resetSwitch (serve d ops (c, t))).2.1 = .initial (serve d ops (c, t)).1.identity := by
  obtain ⟨identity, hprobe, rfl⟩ := register_eq_ok h
  have hfit := (reachable_serve d ops (.initial identity) t).wellFormed
  refine ⟨?_, hfit, fun e he => hfit.toNat_members_lt he, hfit.vlanBase_le, fun op hop => ?_, ?_⟩
  · rw [hprobe, identity_serve]
    rfl
  · rw [config_eq_after, after_of_not_configures hop]
  · rw [config_eq_after]
    rfl

/-- A bank that looks like a BCM5395 and fails from its thirteenth access on. -/
def failing : Faulty Error Bank := .start (.after 12 (.io .injected)) (Bank.set {} Layout.deviceId 0x95)

/-- The failing bank once the switch is brought up, two ports share a VLAN and applying that was cut short. -/
def cutOff : Config × Faulty Error Bank :=
  serve Bank.device.faulty [.setVlanEnabled true, .setVlanPorts 2 [⟨0, false⟩, ⟨8, true⟩], .applyConfig]
    (.initial ⟨.bcm5395, 0⟩, (runOn Bank.device.faulty register failing).2)

theorem serve_wellFormed_cutOff :
    runOn Bank.device.faulty register failing =
        (.ok (.initial ⟨.bcm5395, 0⟩), (runOn Bank.device.faulty register failing).2) ∧
      (layer.device Bank.device.faulty .resetSwitch cutOff).1 = .error (.io .injected) ∧
      cutOff.1.identity = ⟨.bcm5395, 0⟩ ∧ cutOff.1.WellFormed ∧ cutOff.1.vlanBase.toNat ≤ 0xff0 ∧
      (layer.device Bank.device.faulty .applyConfig cutOff).2.1 = cutOff.1 ∧
      (layer.device Bank.device.faulty .resetSwitch cutOff).2.1 = .initial ⟨.bcm5395, 0⟩ := by
  have hup : runOn Bank.device.faulty register failing =
      (.ok (.initial ⟨.bcm5395, 0⟩), (runOn Bank.device.faulty register failing).2) := rfl
  obtain ⟨-, hfit, -, hbase, hkept, hreset⟩ := serve_wellFormed hup
    [.setVlanEnabled true, .setVlanPorts 2 [⟨0, false⟩, ⟨8, true⟩], .applyConfig]
  exact ⟨hup, rfl, rfl, hfit, hbase, hkept .applyConfig rfl, hreset⟩

end Switch

end EtherSwitch
