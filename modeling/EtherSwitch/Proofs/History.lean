import EtherSwitch.Proofs.Discovery

/-! What the VLAN layout of a chip keeps of the past. Applying a configuration writes all the entries that any
    operation writes, all VLAN controls and, if VLANs are off, all default tags; with VLANs on it leaves out
    those of tagged ports. Whatever two switches went through, if they end up with the same configuration and
    apply it, their layouts agree in everything else (`Switch.applyConfig_forgets`). This takes nothing but that
    the switch came up: it may have taken the chip for another. -/

namespace EtherSwitch
open Script

namespace Config

/-- What the VLAN table is to hold at an index. -/
def tableWord (c : Config) (index : UInt16) : BitVec 32 :=
  if c.vlanEnabled then c.entryWord (c.vlan index)
  else if c.chip.family = .fastEthernet ∧ index = 1 then 0x00100fff
  else 0

/-- Two switches, which had stores `s₁` and `s₂`, have the same VLAN layout in stores `t₁` and `t₂` but for the
    default tags that they kept. The ports are those of whatever chip there is. -/
structure SameLayout (c : Config) (s₁ s₂ t₁ t₂ : Store) : Prop where
  table : t₁.table = t₂.table
  controls : ∀ l ∈ [Layout.vlanControl0, Layout.vlanControl1, Layout.vlanControl4, Layout.vlanControl5],
    t₁.registers l = t₂.registers l
  tags : ∀ chip : Chip, ∀ port < chip.numPorts, c.vlanEnabled = false ∨ (c.port port).tagged = false →
    t₁.registers (Layout.defaultTag port) = t₂.registers (Layout.defaultTag port)
  keptTags : c.vlanEnabled = true → ∀ port < c.chip.numPorts, (c.port port).tagged = true →
    t₁.registers (Layout.defaultTag port) = s₁.registers (Layout.defaultTag port) ∧
      t₂.registers (Layout.defaultTag port) = s₂.registers (Layout.defaultTag port)

section
variable {c : Config} {s s₁ s₂ t₁ t₂ : Store} {on : Bool}

theorem ModeSet.controls_eq (h₁ : ModeSet on s₁ t₁) (h₂ : ModeSet on s₂ t₂) :
    ∀ l ∈ [Layout.vlanControl0, Layout.vlanControl1, Layout.vlanControl4, Layout.vlanControl5],
      t₁.registers l = t₂.registers l := by
  intro l hl
  simp only [List.mem_cons, List.not_mem_nil, or_false] at hl
  rcases hl with rfl | rfl | rfl | rfl
  · rw [h₁.control0, h₂.control0]
  · rw [h₁.control1, h₂.control1]
  · rw [h₁.control4, h₂.control4]
  · rw [h₁.control5, h₂.control5]

variable (h : c.WellFormed)
include h

/-- The VLAN table after the configuration was applied. -/
theorem WellFormed.table_puts (hs : s.Healthy c.chip) (index : UInt16) :
    (c.chip.firstEntry ≤ index.toNat → index < c.chip.numVlans →
      (s.writeAll (c.writes s)).table index = some (c.tableWord index)) ∧
    (index.toNat < c.chip.firstEntry ∨ c.chip.numVlans ≤ index →
      (s.writeAll (c.writes s)).table index = s.table index) := by
  rw [tableWord]
  cases hon : c.vlanEnabled with
  | true =>
    refine ⟨fun hfirst hlt => ?_, (h.enforced hon hs).otherEntries index⟩
    rw [writes, taken_puts_of_enabled hon, ← List.append_assoc, Store.writeAll_append]
    exact (h.table_entries (hs.writeAll _) index).1 hfirst hlt
  | false => exact ⟨(flat_writeAll hon hs).entries index, (flat_writeAll hon hs).otherEntries index⟩

/-- Applying a configuration to two stores makes their tables the same if no entry differs that is never
    programmed. -/
theorem WellFormed.table_puts_congr (hs₁ : s₁.Healthy c.chip) (hs₂ : s₂.Healthy c.chip)
    (hrest : ∀ index : UInt16, index.toNat < c.chip.firstEntry ∨ c.chip.numVlans ≤ index →
      s₁.table index = s₂.table index) :
    (s₁.writeAll (c.writes s₁)).table = (s₂.writeAll (c.writes s₂)).table := by
  funext index
  obtain ⟨hin₁, hout₁⟩ := h.table_puts hs₁ index
  obtain ⟨hin₂, hout₂⟩ := h.table_puts hs₂ index
  by_cases hout : index.toNat < c.chip.firstEntry ∨ c.chip.numVlans ≤ index
  · rw [hout₁ hout, hout₂ hout, hrest index hout]
  · obtain ⟨hfirst, hlt⟩ := not_or.mp hout
    rw [hin₁ (Nat.not_lt.mp hfirst) (UInt16.not_le.mp hlt), hin₂ (Nat.not_lt.mp hfirst) (UInt16.not_le.mp hlt)]

/-! ### On chips taken for others -/

/-- The table to hold for an entry that is programmed, also if the chip is none of those that the
    configuration is for. -/
theorem WellFormed.table_puts_as (hs : s.forwardStuck = false) (index : UInt16) :
    (c.chip.Programmed s.chip index →
      (s.writeAll (c.writes s)).table index = some (c.tableWord index)) ∧
    (¬c.chip.Programmed s.chip index →
      (s.writeAll (c.writes s)).table index = s.table index) := by
  by_cases hsame : Chip.SameCommand s.chip c.chip
  · obtain ⟨hin, hout⟩ := h.table_puts (s := s.takenFor c.chip) ⟨rfl, hs⟩ index
    rw [Store.table_writeAll_takenFor hsame]
    refine ⟨fun hp => hin hp.first hp.last, fun hp => hout ?_⟩
    rcases Nat.lt_or_ge index.toNat c.chip.firstEntry with hbefore | hfirst
    · exact Or.inl hbefore
    · exact Or.inr (UInt16.not_lt.mp fun hlast => hp ⟨hsame, hfirst, hlast⟩)
  · have hother : (s.writeAll (c.writes s)).table = s.table :=
      Store.table_writeAll_of_other hsame fun w hw => List.mem_append_left _ (h.location_puts hw)
    rw [hother]
    exact ⟨fun hp => absurd hp.command hsame, fun _ => rfl⟩

/-- The default tags do not depend on what the chip really is. -/
theorem WellFormed.tags_puts (hs : s.forwardStuck = false) {port : UInt8} (hport : port < c.chip.numPorts) :
    (c.vlanEnabled = true → (c.port port).tagged = true →
      (s.writeAll (c.writes s)).registers (Layout.defaultTag port) = s.registers (Layout.defaultTag port)) ∧
    (c.vlanEnabled = false ∨ (c.port port).tagged = false →
      ((s.writeAll (c.writes s)).registers (Layout.defaultTag port)).toNat =
        if c.vlanEnabled then (c.port port).pvid.toNat + c.vlanBase.toNat else 0) := by
  have hagree : ∀ {ws}, (s.writeAll ws).registers (Layout.defaultTag port) =
      ((s.takenFor c.chip).writeAll ws).registers (Layout.defaultTag port) :=
    Store.registers_writeAll_agree (Chip.defaultTag_ne_tableCommand (Chip.lt_nine hport)) rfl rfl
  have hhealthy : (s.takenFor c.chip).Healthy c.chip := ⟨rfl, hs⟩
  rw [hagree]
  refine ⟨fun hon htagged => (h.enforced hon hhealthy).taggedPorts port hport htagged, fun hwritten => ?_⟩
  cases hon : c.vlanEnabled with
  | true =>
    rcases hwritten with hoff | huntagged
    · cases hon.symm.trans hoff
    · exact (h.enforced hon hhealthy).tags port hport huntagged
  | false =>
    have htag := (flat_writeAll hon hhealthy).tags port hport
    exact congrArg BitVec.toNat htag

/-- Applying a configuration makes the layouts of two stores the same if they have the same chip and differ
    in nothing that is never written. -/
theorem WellFormed.sameLayout (hs₁ : s₁.forwardStuck = false) (hs₂ : s₂.forwardStuck = false)
    (hchip : s₁.chip = s₂.chip)
    (htable : ∀ index, ¬c.chip.Programmed s₁.chip index → s₁.table index = s₂.table index)
    (hothers : ∀ l, l ∉ c.chip.writtenRegisters → s₁.registers l = s₂.registers l) :
    c.SameLayout s₁ s₂ (s₁.writeAll (c.writes s₁)) (s₂.writeAll (c.writes s₂)) where
  table := by
    funext index
    obtain ⟨hin₁, hout₁⟩ := h.table_puts_as hs₁ index
    obtain ⟨hin₂, hout₂⟩ := h.table_puts_as hs₂ index
    rw [← hchip] at hin₂ hout₂
    by_cases hp : c.chip.Programmed s₁.chip index
    · rw [hin₁ hp, hin₂ hp]
    · rw [hout₁ hp, hout₂ hp, htable index hp]
  controls := (h.modeSet_puts hs₁).controls_eq (h.modeSet_puts hs₂)
  tags chip port hport hwritten := by
    by_cases hown : port < c.chip.numPorts
    · apply BitVec.eq_of_toNat_eq
      rw [(h.tags_puts hs₁ hown).2 hwritten, (h.tags_puts hs₂ hown).2 hwritten]
    · have hout := Chip.defaultTag_not_written (Chip.lt_nine hport) (UInt8.not_lt.mp hown)
      have hkept : ∀ s : Store, (s.writeAll (c.writes s)).registers (Layout.defaultTag port) =
          s.registers (Layout.defaultTag port) := fun s =>
        Store.registers_writeAll_outside s (fun w hw => List.mem_append_left _ (h.location_puts hw)) hout
      rw [hkept, hkept, hothers _ hout]
  keptTags hon port hport htagged :=
    ⟨(h.tags_puts hs₁ hport).1 hon htagged, (h.tags_puts hs₂ hport).1 hon htagged⟩

end

end Config

namespace Switch

section
variable {c : Config} {e : Engine}

/-- No operation reaches the entries that applying a configuration does not program. -/
theorem table_writes (hc : c.WellFormed) {s : Store} (hs : s.forwardStuck = false) (op : Operation)
    {index : UInt16} (hout : ¬c.chip.Programmed s.chip index) :
    (s.writeAll (op.writes c s)).table index = s.table index := by
  cases op with
  | applyConfig => exact (hc.table_puts_as hs index).2 hout
  | resetSwitch =>
    have hreset : (s.writeAll ((c.chip.resetPuts s).map Put.taken)).table = s.table :=
      Store.table_writeAll_of_ne fun w hw real _ heq =>
        c.chip.tableCommand_not_mem_reset real (heq ▸ location_reset hw)
    have hclear : c.clear.WellFormed := .initial c.identity
    have happlied := (hclear.table_puts_as ((Store.forwardStuck_writeAll s _).trans hs) index).2
      ((Store.chip_writeAll s ((c.chip.resetPuts s).map Put.taken)).symm ▸ hout)
    rwa [← Store.writeAll_append, hreset] at happlied
  | setManaged on =>
    have hmode : Layout.switchMode ∈ Layout.modeRegisters := by decide
    exact congrFun (Store.table_write_of_ne (s.mode_ne_command hmode)) index
  | _ => rfl

/-- What a run of operations leaves as it was. -/
theorem serve_leaves (he : e.Attached) {ops : List Operation} (hops : ∀ op ∈ ops, op.isRaw = false)
    (hc : c.WellFormed) {s : Simulation} (hs : s.Reachable) (hfree : s.FaultFree) (n : Nat) :
    (serve e.device ops (c, n, s)).2.2.Reachable ∧ (serve e.device ops (c, n, s)).2.2.FaultFree ∧
      (serve e.device ops (c, n, s)).2.2.store.chip = s.store.chip ∧
      (∀ index, ¬c.chip.Programmed s.store.chip index →
        (serve e.device ops (c, n, s)).2.2.store.table index = s.store.table index) ∧
      ∀ l, l ∉ c.chip.writtenRegisters →
        (serve e.device ops (c, n, s)).2.2.store.registers l = s.store.registers l := by
  let Left (u : Config × Nat × Simulation) : Prop := u.2.2.store.chip = s.store.chip ∧
    (∀ index, ¬c.chip.Programmed s.store.chip index → u.2.2.store.table index = s.store.table index) ∧
    ∀ l, l ∉ c.chip.writtenRegisters → u.2.2.store.registers l = s.store.registers l
  refine (serve_keeps (d := e.device) (P := fun op => op.isRaw = false)
    (K := fun u => (u.1.WellFormed ∧ u.1.identity = c.identity) ∧ u.2.2.Reachable ∧ u.2.2.FaultFree ∧ Left u)
    ?_ hops ⟨⟨hc, rfl⟩, hs, hfree, rfl, fun _ _ => rfl, fun _ _ => rfl⟩).2
  rintro op ⟨c', m, u⟩ hop ⟨⟨hc', hidentity⟩, hu, hfree', hchip, htable, hothers⟩
  obtain ⟨hreachable, hfree''⟩ := faultFree_perform hc' he hu hfree' hop m
  obtain ⟨k, -, hstore⟩ := onlyRead_perform hc' he hu hfree' hop m
  have hsame : c'.chip = c.chip := congrArg Identity.chip hidentity
  rw [config_eq_after]
  refine ⟨⟨hc'.after op, (identity_after op c').trans hidentity⟩, hreachable, hfree'', ?_⟩
  show (layer.device e.device op (c', m, u)).2.2.2.store.chip = _ ∧ _
  rw [hstore]
  refine ⟨(Store.chip_writeAll _ _).trans hchip, fun index hout => ?_, fun l hl => ?_⟩
  · rw [← htable index hout]
    exact table_writes hc' hfree'.forwards op (by rwa [hsame, hchip])
  · rw [← hothers l hl]
    exact Store.registers_writeAll_outside _ (fun w hw => hsame ▸ location_writes hc' hw) hl

end

section
variable {e e₁ e₂ : Engine} {s : Simulation} {chip : Chip} {c : Config}

/-- If two runs of operations but raw register writes bring a switch from the same start to the same
    configuration, then applying it succeeds after both and the VLAN table, the VLAN controls and the default
    tags are the same, except that with VLANs on the tags of tagged ports stay as the runs have left them. -/
theorem applyConfig_forgets (he : e.Attached) (he₁ : e₁.Attached) (he₂ : e₂.Attached) (hs : s.Reachable)
    (hfree : s.FaultFree) {n : Nat} {t : Nat × Simulation} (hup : runOn e.device register (n, s) = (.ok c, t))
    {ops₁ ops₂ : List Operation} (hops₁ : ∀ op ∈ ops₁, op.isRaw = false) (hops₂ : ∀ op ∈ ops₂, op.isRaw = false)
    (hsame : (serve e₁.device ops₁ (c, t)).1 = (serve e₂.device ops₂ (c, t)).1) :
    (layer.device e₁.device .applyConfig (serve e₁.device ops₁ (c, t))).1 = .ok () ∧
      (layer.device e₂.device .applyConfig (serve e₂.device ops₂ (c, t))).1 = .ok () ∧
      (serve e₁.device ops₁ (c, t)).1.SameLayout
        (serve e₁.device ops₁ (c, t)).2.2.store (serve e₂.device ops₂ (c, t)).2.2.store
        (layer.device e₁.device .applyConfig (serve e₁.device ops₁ (c, t))).2.2.2.store
        (layer.device e₂.device .applyConfig (serve e₂.device ops₂ (c, t))).2.2.2.store := by
  obtain ⟨hreachable, hfree', -⟩ := follows_register he hs hfree hup
  obtain ⟨identity, -, rfl⟩ := register_eq_ok hup
  obtain ⟨n', u⟩ := t
  have hwell := (reachable_serve e₁.device ops₁ (.initial identity) (n', u)).wellFormed
  have hidentity := identity_serve e₁.device ops₁ (Config.initial identity) (n', u)
  obtain ⟨hreachable₁, hfree₁, hchip₁, htable₁, hothers₁⟩ :=
    serve_leaves he₁ hops₁ (.initial identity) hreachable hfree' n'
  obtain ⟨hreachable₂, hfree₂, hchip₂, htable₂, hothers₂⟩ :=
    serve_leaves he₂ hops₂ (.initial identity) hreachable hfree' n'
  generalize serve e₁.device ops₁ (Config.initial identity, n', u) = r₁ at *
  generalize serve e₂.device ops₂ (Config.initial identity, n', u) = r₂ at *
  obtain ⟨c', m₁, u₁⟩ := r₁
  obtain ⟨c'', m₂, u₂⟩ := r₂
  obtain rfl : c' = c'' := hsame
  have hchip : c'.chip = (Config.initial identity).chip := congrArg Identity.chip hidentity
  obtain ⟨hok₁, -, hstore₁⟩ := device_applyConfig_store hwell he₁ hreachable₁ hfree₁ m₁
  obtain ⟨hok₂, -, hstore₂⟩ := device_applyConfig_store hwell he₂ hreachable₂ hfree₂ m₂
  rw [hstore₁, hstore₂]
  rw [← hchip] at htable₁ htable₂ hothers₁ hothers₂
  refine ⟨hok₁, hok₂,
    hwell.sameLayout hfree₁.forwards hfree₂.forwards (hchip₁.trans hchip₂.symm) (fun index hout => ?_)
    fun l hl => (hothers₁ l hl).trans (hothers₂ l hl).symm⟩
  rw [hchip₁] at hout
  exact (htable₁ index hout).trans (htable₂ index hout).symm

/-! A port that becomes tagged keeps the default tag that an earlier configuration gave it. -/

/-- VLANs on, and port 0 of a BCM5325E in VLAN 5. -/
def alone : Config :=
  Operation.after (.setPortPvid 0 5) (Operation.after (.setVlanEnabled true) (.initial ⟨.bcm5325E, 0⟩))

/-- Port 0 then sends tagged. -/
def trunk : Config := Operation.after (.setVlanPorts 1 [⟨0, true⟩]) alone

def direct : List Operation := [.setVlanEnabled true, .setPortPvid 0 5, .setVlanPorts 1 [⟨0, true⟩]]

/-- The same, but applying the configuration on the way. -/
def detour : List Operation :=
  [.setVlanEnabled true, .setPortPvid 0 5, .applyConfig, .setVlanPorts 1 [⟨0, true⟩]]

theorem alone_wellFormed : alone.WellFormed := ((Config.WellFormed.initial _).after _).after _

theorem trunk_wellFormed : trunk.WellFormed := alone_wellFormed.after _

theorem serve_direct {σ : Type} (d : Device Registers σ) (s : σ) :
    serve d direct (.initial ⟨.bcm5325E, 0⟩, s) = (trunk, s) := rfl

theorem serve_detour {σ : Type} (d : Device Registers σ) (s : σ) :
    serve d detour (.initial ⟨.bcm5325E, 0⟩, s) = (trunk, (layer.device d .applyConfig (alone, s)).2.2) := by
  have hsplit : detour = [.setVlanEnabled true, .setPortPvid 0 5] ++
      ([.applyConfig] ++ [.setVlanPorts 1 [⟨0, true⟩]]) := rfl
  have hfirst : serve d [.setVlanEnabled true, .setPortPvid 0 5] (.initial ⟨.bcm5325E, 0⟩, s) = (alone, s) :=
    rfl
  have hlast : ∀ u, (layer.device d (.setVlanPorts 1 [⟨0, true⟩]) (alone, u)).2 = (trunk, u) := fun _ => rfl
  have hkept : (layer.device d .applyConfig (alone, s)).2 =
      (alone, (layer.device d .applyConfig (alone, s)).2.2) :=
    Prod.ext (config_eq_after d alone s .applyConfig) rfl
  rw [hsplit, serve_append, serve_append, hfirst, serve_singleton, serve_singleton, hkept, hlast]

section
variable {t : Nat × Simulation} (he : e.Attached) (ht : t.2.Ready .bcm5325E)
include he ht

theorem tag_alone : (layer.device e.device .applyConfig (alone, t)).2.2.2.Ready .bcm5325E ∧
    (layer.device e.device .applyConfig (alone, t)).2.2.2.store.registers (Layout.defaultTag 0) = 5 := by
  obtain ⟨n, s⟩ := t
  obtain ⟨-, -, hstore⟩ := device_applyConfig_store alone_wellFormed he ht.reachable ht.faultFree n
  have htag := (alone_wellFormed.enforced rfl ht.healthy).tags 0 (by decide) rfl
  rw [← hstore] at htag
  exact ⟨ready_perform alone_wellFormed he ht rfl n, BitVec.eq_of_toNat_eq htag⟩

theorem tag_trunk : (layer.device e.device .applyConfig (trunk, t)).1 = .ok () ∧
    (layer.device e.device .applyConfig (trunk, t)).2.2.2.store.registers (Layout.defaultTag 0) =
      t.2.store.registers (Layout.defaultTag 0) := by
  obtain ⟨n, s⟩ := t
  obtain ⟨hok, -, hstore⟩ := device_applyConfig_store trunk_wellFormed he ht.reachable ht.faultFree n
  have htag := (trunk_wellFormed.enforced rfl ht.healthy).taggedPorts 0 (by decide) rfl
  rw [← hstore] at htag
  exact ⟨hok, htag⟩

end

theorem register_bcm5325E (he : e.Attached) : ∃ t, runOn e.device register (0, .new (.ofChip .bcm5325E)) =
    (.ok (.initial ⟨.bcm5325E, 0⟩), t) ∧ t.2.Ready .bcm5325E ∧
      t.2.store.registers (Layout.defaultTag 0) = 0 := by
  have hid : (Simulation.new (.ofChip .bcm5325E)).store.Identifies .bcm5325E :=
    Model.identifies (m := .ofChip .bcm5325E) rfl
  obtain ⟨t, hup, hready, -⟩ :=
    register_ready he (Simulation.reachable_new _) ⟨rfl, rfl, rfl⟩ rfl hid (by decide) 0
  obtain ⟨-, hstore⟩ := device_register he ⟨rfl, rfl, rfl⟩ rfl hid (by decide) 0
  rw [hup] at hstore
  refine ⟨t, hup, hready, ?_⟩
  rw [hstore]
  exact Store.registers_writeAll_outside _ (fun w hw => location_reset hw) (by decide)

/-- A BCM5325E that hides its id for longer than it is asked for it. -/
def late : Model := { Model.ofChip .bcm5325E with zeroIdReads := 12 }

theorem applyConfig_forgets_detour :
    ∃ t, runOn Engine.spi.device register (0, .new late) = (.ok (.initial ⟨.bcm5325E, 0⟩), t) ∧
      (serve Engine.spi.device direct (.initial ⟨.bcm5325E, 0⟩, t)).1 =
        (serve (Engine.mdio {}).device detour (.initial ⟨.bcm5325E, 0⟩, t)).1 ∧
      (serve Engine.spi.device direct (.initial ⟨.bcm5325E, 0⟩, t)).1.SameLayout
        (serve Engine.spi.device direct (.initial ⟨.bcm5325E, 0⟩, t)).2.2.store
        (serve (Engine.mdio {}).device detour (.initial ⟨.bcm5325E, 0⟩, t)).2.2.store
        (layer.device Engine.spi.device .applyConfig
          (serve Engine.spi.device direct (.initial ⟨.bcm5325E, 0⟩, t))).2.2.2.store
        (layer.device (Engine.mdio {}).device .applyConfig
          (serve (Engine.mdio {}).device detour (.initial ⟨.bcm5325E, 0⟩, t))).2.2.2.store := by
  have hspi : Engine.spi.Attached := trivial
  have hmdio : (Engine.mdio {}).Attached := rfl
  obtain ⟨hfound, -⟩ := register_of_attached (m := late) (n := 0) hspi
  obtain ⟨t, hup⟩ : ∃ t, runOn Engine.spi.device register (0, .new late) = (.ok (.initial ⟨.bcm5325E, 0⟩), t) :=
    ⟨_, Prod.ext hfound rfl⟩
  have hsame : (serve Engine.spi.device direct (.initial ⟨.bcm5325E, 0⟩, t)).1 =
      (serve (Engine.mdio {}).device detour (.initial ⟨.bcm5325E, 0⟩, t)).1 := by
    rw [serve_direct, serve_detour]
  obtain ⟨-, -, hlayout⟩ :=
    applyConfig_forgets hspi hspi hmdio (Simulation.reachable_new late) ⟨rfl, rfl, rfl⟩ hup
    (by decide) (by decide) hsame
  exact ⟨t, hup, hsame, hlayout⟩

/-- Both ways lead to the same configuration, but not to the same default tag of the port that is tagged now. -/
theorem applyConfig_remembers_tag :
    Engine.spi.Attached ∧ (Simulation.new (.ofChip .bcm5325E)).Reachable ∧
      (Simulation.new (.ofChip .bcm5325E)).FaultFree ∧
      (Simulation.new (.ofChip .bcm5325E)).store.chip = some .bcm5325E ∧
      ∃ t, runOn Engine.spi.device register (0, .new (.ofChip .bcm5325E)) = (.ok (.initial ⟨.bcm5325E, 0⟩), t) ∧
        (serve Engine.spi.device direct (.initial ⟨.bcm5325E, 0⟩, t)).1 =
          (serve Engine.spi.device detour (.initial ⟨.bcm5325E, 0⟩, t)).1 ∧
        (layer.device Engine.spi.device .applyConfig
          (serve Engine.spi.device direct (.initial ⟨.bcm5325E, 0⟩, t))).1 = .ok () ∧
        (layer.device Engine.spi.device .applyConfig
          (serve Engine.spi.device detour (.initial ⟨.bcm5325E, 0⟩, t))).1 = .ok () ∧
        (layer.device Engine.spi.device .applyConfig
          (serve Engine.spi.device direct (.initial ⟨.bcm5325E, 0⟩, t))).2.2.2.store.registers
            (Layout.defaultTag 0) = 0 ∧
        (layer.device Engine.spi.device .applyConfig
          (serve Engine.spi.device detour (.initial ⟨.bcm5325E, 0⟩, t))).2.2.2.store.registers
            (Layout.defaultTag 0) = 5 := by
  have hspi : Engine.spi.Attached := trivial
  obtain ⟨t, hup, hready, hzero⟩ := register_bcm5325E hspi
  obtain ⟨hready', hfive⟩ := tag_alone hspi hready
  obtain ⟨hok₁, hkept₁⟩ := tag_trunk hspi hready
  obtain ⟨hok₂, hkept₂⟩ := tag_trunk hspi hready'
  refine ⟨hspi, Simulation.reachable_new _, ⟨rfl, rfl, rfl⟩, rfl, t, hup, ?_⟩
  rw [serve_direct, serve_detour]
  exact ⟨rfl, hok₁, hok₂, hkept₁.trans hzero, hkept₂.trans hfive⟩

end

end Switch

end EtherSwitch
