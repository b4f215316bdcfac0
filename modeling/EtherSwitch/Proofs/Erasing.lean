import EtherSwitch.Proofs.Overwriting

/-! What a reset leaves of the past. Operations but raw register writes change nothing that a reset does not set
    again, not even if they are cut off (`Switch.resetAlike_partway`), and a reset makes stores the same that
    differ in nothing else (`Store.ResetAlike.sameContent`). So whatever two switches went through, a reset
    brings them to the same configuration, registers and VLAN table (`Switch.resetSwitch_erases`). -/

namespace EtherSwitch
open Script

/-! ### The switch mode -/

theorem withForwarding_withManaged (on : Bool) (mode : BitVec 8) :
    withForwarding (withManaged on mode) = withForwarding mode :=
  congrArg (· ||| Layout.forwarding) (withManaged_withManaged false on mode)

theorem withManaged_withForwarding (mode : BitVec 8) :
    withManaged false (withForwarding mode) = withForwarding mode := by
  revert mode
  decide

theorem withManaged_of_forwarding {mode : BitVec 8} (h : mode &&& Layout.forwarding ≠ 0) :
    withManaged false mode = withForwarding mode := by
  revert mode
  decide

theorem withForwarding_withForwarding (mode : BitVec 8) :
    withForwarding (withForwarding mode) = withForwarding mode :=
  (withManaged_of_forwarding (forwarding_withForwarding mode)).symm.trans (withManaged_withForwarding mode)

/-! ### What a reset cannot tell apart -/

namespace Store

/-- The stores differ in nothing but what a reset sets. -/
structure ResetAlike (chip : Chip) (s t : Store) : Prop where
  mode : withForwarding ((s.registers Layout.switchMode).setWidth 8) =
    withForwarding ((t.registers Layout.switchMode).setWidth 8)
  override : chip.forced (s.registers Layout.portOverride) = chip.forced (t.registers Layout.portOverride)
  others : ∀ l, l ∉ Layout.modeRegisters ++ chip.tagRegisters ++ chip.controlRegisters ++ chip.tableRegisters ++
    [Layout.portOverride] → s.registers l = t.registers l
  entries : ∀ index : UInt16, index.toNat < chip.firstEntry ∨ chip.numVlans ≤ index →
    s.table index = t.table index

section
variable {chip : Chip} {s t u : Store}

theorem ResetAlike.refl (chip : Chip) (s : Store) : ResetAlike chip s s :=
  ⟨rfl, rfl, fun _ _ => rfl, fun _ _ => rfl⟩

theorem ResetAlike.symm (h : ResetAlike chip s t) : ResetAlike chip t s :=
  ⟨h.mode.symm, h.override.symm, fun l hl => (h.others l hl).symm,
    fun index hout => (h.entries index hout).symm⟩

theorem ResetAlike.trans (h : ResetAlike chip s t) (h' : ResetAlike chip t u) : ResetAlike chip s u :=
  ⟨h.mode.trans h'.mode, h.override.trans h'.override, fun l hl => (h.others l hl).trans (h'.others l hl),
    fun index hout => (h.entries index hout).trans (h'.entries index hout)⟩

/-- The baseline of a chip: forwarding on and managed mode off once the latter is cleared, and the ports' state
    forced. It touches neither the table nor any other register but port control. -/
theorem Healthy.baseline (hs : s.Healthy chip) :
    withManaged false
      (((s.writeAll ((chip.resetPuts s).map Put.taken)).registers Layout.switchMode).setWidth 8) =
        withForwarding ((s.registers Layout.switchMode).setWidth 8) ∧
      (s.writeAll ((chip.resetPuts s).map Put.taken)).registers Layout.portOverride =
        chip.forced (s.registers Layout.portOverride) ∧
      (∀ l, l ∉ Layout.switchMode :: chip.controlRegisters ++ [Layout.portOverride] →
        (s.writeAll ((chip.resetPuts s).map Put.taken)).registers l = s.registers l) ∧
      (s.writeAll ((chip.resetPuts s).map Put.taken)).table = s.table := by
  have hmode : withManaged false
        (((s.writeAll ((chip.resetPuts s).map Put.taken)).registers Layout.switchMode).setWidth 8) =
          withForwarding ((s.registers Layout.switchMode).setWidth 8) ∧
      (s.writeAll ((chip.resetPuts s).map Put.taken)).registers Layout.portOverride =
        chip.forced (s.registers Layout.portOverride) := by
    by_cases hon : (s.registers Layout.switchMode).setWidth 8 &&& Layout.forwarding = 0
    · obtain ⟨hraised, hforced⟩ := raised_reset hs hon
      rw [hraised.mode, narrow_widen (by decide)]
      exact ⟨withManaged_withForwarding _, hforced⟩
    · rw [reset_of_forwarding hon, registers_force_of_ne chip s (by decide)]
      exact ⟨withManaged_of_forwarding hon, registers_force hs⟩
  refine ⟨hmode.1, hmode.2, fun l hl => ?_, ?_⟩
  · exact registers_writeAll_outside s (fun w hw => location_reset hw) hl
  · exact hs.table_writeAll fun w hw => chip.resetRegisters_nodup.2 _ (location_reset hw)

/-- A reset makes such stores the same. -/
theorem ResetAlike.sameContent {c : Config} (h : ResetAlike c.chip s t) (hs : s.Healthy c.chip)
    (ht : t.Healthy c.chip) :
    (s.writeAll (Switch.resetWrites c s)).SameContent (t.writeAll (Switch.resetWrites c t)) := by
  obtain ⟨hmode, hforced, hkept, htable⟩ := hs.baseline
  obtain ⟨hmode', hforced', hkept', htable'⟩ := ht.baseline
  have hs' := hs.writeAll ((c.chip.resetPuts s).map Put.taken)
  have ht' := ht.writeAll ((c.chip.resetPuts t).map Put.taken)
  have hclear : c.clear.WellFormed := .initial c.identity
  rw [Switch.resetWrites, Switch.resetWrites, writeAll_append, writeAll_append]
  generalize s.writeAll ((c.chip.resetPuts s).map Put.taken) = s' at *
  generalize t.writeAll ((c.chip.resetPuts t).map Put.taken) = t' at *
  have happly : c.clear.ApplyAlike s' t' := {
    mode := hmode.trans (h.mode.trans hmode'.symm)
    others := fun l hl => by
      -- Without VLANs all registers are written but the one that the baseline has forced in both stores.
      have hunwritten : l ∉ Layout.modeRegisters ++ c.chip.tagRegisters ++ c.chip.controlRegisters ++
          c.chip.tableRegisters := by
        intro hgroup
        obtain ⟨w, hw, hwl⟩ :=
          Config.written_of_disabled (c := c.clear) rfl ((t'.registers Layout.switchMode).setWidth 8) hgroup
        exact hl w hw hwl
      by_cases hports : l = Layout.portOverride
      · rw [hports, hforced, hforced', h.override]
      · have hout : l ∉ Layout.switchMode :: c.chip.controlRegisters ++ [Layout.portOverride] := by
          have hfirst : Layout.switchMode ∈ Layout.modeRegisters := by decide
          simp only [List.mem_append, List.mem_cons, List.not_mem_nil, or_false, not_or] at hunwritten ⊢
          exact ⟨⟨fun heq => hunwritten.1.1.1 (heq ▸ hfirst), hunwritten.1.2⟩, hports⟩
        rw [hkept l hout, hkept' l hout]
        refine h.others l fun hwritten => ?_
        rcases List.mem_append.mp hwritten with hwritten | hwritten
        · exact hunwritten hwritten
        · exact hports (List.mem_singleton.mp hwritten)
    entries := fun index hout => by rw [htable, htable', h.entries index hout] }
  exact (happly.sameContent hclear hs' ht').2

end

end Store

/-! ### What operations change -/

theorem Chip.Programs.append {chip : Chip} {entries : List (UInt16 × BitVec 32)} {ws first : List RegisterWrite}
    (h : chip.Programs entries ws) (hfirst : ∀ w ∈ first, w.location ∉ chip.tableRegisters) :
    chip.Programs entries (first ++ ws) := by
  obtain ⟨before, after, rfl, hbefore, hafter⟩ := h.split
  refine ⟨h.low, first ++ before, after, by simp only [List.append_assoc], fun w hw => ?_, hafter⟩
  rcases List.mem_append.mp hw with hw | hw
  · exact hfirst w hw
  · exact hbefore w hw

theorem Chip.programs_nothing {chip : Chip} {ws : List RegisterWrite}
    (h : ∀ w ∈ ws, w.location ∉ chip.tableRegisters) :
    chip.Programs [] ws :=
  ⟨List.forall_mem_nil _, ws, [], by simp, h, List.forall_mem_nil _⟩

namespace Switch
variable {c : Config} {s : Store}

/-- An operation programs entries of the part of the table that is programmed, and no others. -/
theorem Operation.programs_writes (hc : c.WellFormed) (op : Operation) (s : Store) :
    ∃ entries, c.chip.Programs entries (op.writes c s) ∧
      ∀ e ∈ entries, ¬(e.1.toNat < c.chip.firstEntry ∨ c.chip.numVlans ≤ e.1) := by
  have hinside : ∀ {c : Config}, c.WellFormed → ∀ e ∈ c.tableEntries,
      ¬(e.1.toNat < c.chip.firstEntry ∨ c.chip.numVlans ≤ e.1) := fun hc e he => by
    obtain ⟨hfirst, hlt, -⟩ := hc.mem_tableEntries he
    exact not_or.mpr ⟨Nat.not_lt.mpr hfirst, UInt16.not_le.mpr hlt⟩
  have hclear : c.clear.WellFormed := .initial c.identity
  cases op with
  | applyConfig => exact ⟨_, hc.programs_puts _, hinside hc⟩
  | resetSwitch =>
    refine ⟨_, (hclear.programs_puts _).append fun w hw => ?_, hinside hclear⟩
    exact c.chip.resetRegisters_nodup.2 _ (location_reset hw)
  | setManaged on =>
    refine ⟨[], Chip.programs_nothing fun w hw => ?_, List.forall_mem_nil _⟩
    rw [List.mem_singleton.mp hw]
    exact (c.chip.modeRegisters_disjoint Layout.switchMode (by decide)).2.2
  | _ => exact ⟨[], Chip.programs_nothing (List.forall_mem_nil _), List.forall_mem_nil _⟩

theorem override_reset {chip : Chip} {w : RegisterWrite} (hw : w ∈ (chip.resetPuts s).map Put.taken)
    (hl : w.location = Layout.portOverride) : w.value = chip.forced (s.registers Layout.portOverride) := by
  rw [Chip.resetPuts, List.map_append, taken_force] at hw
  rcases List.mem_append.mp hw with hw | hw
  · have henable := location_enable hw
    rw [hl] at henable
    exact absurd henable chip.portOverride_not_mem
  · split at hw
    case isTrue hports =>
      rw [Chip.forced, if_pos hports, List.mem_singleton.mp hw]
    case isFalse => cases hw

theorem mode_writes (hc : c.WellFormed) (hs : s.Healthy c.chip) {op : Operation} {w : RegisterWrite}
    (hw : w ∈ op.writes c s) (hl : w.location = Layout.switchMode) :
    withForwarding (w.value.setWidth 8) = withForwarding ((s.registers Layout.switchMode).setWidth 8) := by
  cases op with
  | applyConfig => rw [hc.mode_puts hw hl, narrow_widen (by decide), withForwarding_withManaged]
  | resetSwitch =>
    -- The baseline raises forwarding, and the default configuration starts from the mode that it left.
    rcases List.mem_append.mp hw with hw | hw
    · rw [mode_reset hw hl, narrow_widen (by decide), withForwarding_withForwarding]
    · have hclear : c.clear.WellFormed := .initial c.identity
      rw [hclear.mode_puts hw hl, narrow_widen (by decide),
        show c.clear.vlanEnabled = false from rfl, hs.baseline.1, withForwarding_withForwarding]
  | setManaged on => rw [List.mem_singleton.mp hw, narrow_widen (by decide), withForwarding_withManaged]
  | _ => cases hw

theorem override_writes (hc : c.WellFormed) {op : Operation} {w : RegisterWrite} (hw : w ∈ op.writes c s)
    (hl : w.location = Layout.portOverride) :
    c.chip.forced w.value = c.chip.forced (s.registers Layout.portOverride) := by
  have happlied : ∀ {c' : Config} {mode : BitVec 8}, c'.WellFormed → c'.chip = c.chip →
      w ∉ (c'.puts mode).map Put.taken := by
    intro c' mode hc' hchip hw
    have hout : Layout.portOverride ∉ Layout.modeRegisters ++ c.chip.tagRegisters ++ c.chip.controlRegisters ++
        c.chip.tableRegisters := by
      cases c.chip <;> decide
    have hin := hc'.location_puts hw
    rw [hl, hchip] at hin
    exact hout hin
  cases op with
  | applyConfig => exact absurd hw (happlied hc rfl)
  | resetSwitch =>
    rcases List.mem_append.mp hw with hw | hw
    · rw [override_reset hw hl, Chip.forced_forced]
    · exact absurd hw (happlied (.initial c.identity) rfl)
  | setManaged on => cases (congrArg RegisterWrite.location (List.mem_singleton.mp hw)).symm.trans hl
  | _ => cases hw

/-- Wherever an operation is cut off, a reset cannot tell that it was begun. -/
theorem resetAlike_partway (hc : c.WellFormed) (hs : s.Healthy c.chip) (op : Operation)
    {done : List RegisterWrite}
    (hdone : done <+: op.writes c s) : Store.ResetAlike c.chip (s.writeAll done) s where
  mode := hs.registers_writeAll_keeps (c.chip.modeRegisters_disjoint _ (by decide)).2.2 rfl
    (P := fun v => withForwarding (v.setWidth 8) = withForwarding ((s.registers Layout.switchMode).setWidth 8))
    fun _ hw hl => mode_writes hc hs (hdone.subset hw) hl
  override :=
    hs.registers_writeAll_keeps (c.chip.resetRegisters_nodup.2 _ (List.mem_append_right _ (.head _))) rfl
    (P := fun v => c.chip.forced v = c.chip.forced (s.registers Layout.portOverride))
    fun _ hw hl => override_writes hc (hdone.subset hw) hl
  others _ hl := Store.registers_writeAll_outside s (fun _ hw => location_writes hc (hdone.subset hw)) hl
  entries index hout := by
    obtain ⟨entries, hprograms, hinside⟩ := op.programs_writes hc s
    rcases hs.table_partway hprograms hdone index with hkept | ⟨e, he, rfl, -⟩
    · exact hkept
    · exact absurd hout (hinside e he)

section
variable {e e₁ e₂ : Engine} {chip : Chip}

theorem resetWrites_clear (c : Config) (s : Store) : resetWrites c.clear s = resetWrites c s := rfl

theorem device_resetSwitch_store {s : Simulation} (he : e.Attached) (hs : s.Ready c.chip) (n : Nat) :
    (layer.device e.device .resetSwitch (c, n, s)).1 = .ok () ∧
      (layer.device e.device .resetSwitch (c, n, s)).2.1 = c.clear ∧
      (layer.device e.device .resetSwitch (c, n, s)).2.2.2.store =
        s.store.writeAll (resetWrites c s.store) := by
  obtain ⟨hanswer, hstore⟩ :=
    Engine.runOn_does he hs.reachable hs.faultFree (uses_resetSwitch c) (does_resetSwitch hs.healthy) n
  rw [device_resetSwitch]
  exact ⟨hanswer, rfl, hstore⟩

/-- Whatever operations a switch performs but raw register writes, a reset cannot tell. -/
theorem resetAlike_serve (he : e.Attached) {ops : List Operation} (hops : ∀ op ∈ ops, op.isRaw = false)
    (hc : c.WellFormed) {t : Nat × Simulation} (ht : t.2.Ready c.chip) :
    (serve e.device ops (c, t)).2.2.Ready c.chip ∧
      Store.ResetAlike c.chip (serve e.device ops (c, t)).2.2.store t.2.store := by
  refine (serve_ready he ?_ [] hops t.1 hc rfl ht (Store.ResetAlike.refl c.chip t.2.store)
    (Q := fun _ u => Store.ResetAlike c.chip u t.2.store)).2
  intro _ op c' u hc' hchip hu halike
  rw [← hchip] at hu halike ⊢
  exact (resetAlike_partway hc' hu op List.prefix_rfl).trans halike

/-- Whatever operations but raw register writes two switches performed since the same start, a reset succeeds on
    both and leaves both with the configuration they started with and with the same content of the chip. -/
theorem resetSwitch_erases {s : Simulation} (he : e.Attached) (he₁ : e₁.Attached) (he₂ : e₂.Attached)
    (hs : s.Reachable) (hfree : s.FaultFree) (hchip : s.store.chip = some chip) (hid : s.store.Identifies chip)
    (hzero : s.store.zeroIdReads < 10) {n : Nat} {t : Nat × Simulation}
    (hup : runOn e.device register (n, s) = (.ok c, t)) {ops₁ ops₂ : List Operation}
    (hops₁ : ∀ op ∈ ops₁, op.isRaw = false) (hops₂ : ∀ op ∈ ops₂, op.isRaw = false) :
    (layer.device e₁.device .resetSwitch (serve e₁.device ops₁ (c, t))).1 = .ok () ∧
      (layer.device e₂.device .resetSwitch (serve e₂.device ops₂ (c, t))).1 = .ok () ∧
      (layer.device e₁.device .resetSwitch (serve e₁.device ops₁ (c, t))).2.1 = c ∧
      (layer.device e₂.device .resetSwitch (serve e₂.device ops₂ (c, t))).2.1 = c ∧
      (layer.device e₁.device .resetSwitch (serve e₁.device ops₁ (c, t))).2.2.2.store.SameContent
        (layer.device e₂.device .resetSwitch (serve e₂.device ops₂ (c, t))).2.2.2.store := by
  obtain ⟨u, hanswer, hready, -⟩ := register_ready he hs hfree hchip hid hzero n
  obtain ⟨hconfig, rfl⟩ := Prod.mk.inj (hup.symm.trans hanswer)
  obtain rfl := Except.ok.inj hconfig
  have hwell := Config.WellFormed.initial (s.store.identity chip)
  -- A reset goes back to the default configuration of the identity, which no operation changes.
  have hidentity₁ := identity_serve e₁.device ops₁ (.initial (s.store.identity chip)) t
  have hidentity₂ := identity_serve e₂.device ops₂ (.initial (s.store.identity chip)) t
  obtain ⟨hready₁, halike₁⟩ := resetAlike_serve he₁ hops₁ hwell hready
  obtain ⟨hready₂, halike₂⟩ := resetAlike_serve he₂ hops₂ hwell hready
  generalize serve e₁.device ops₁ (Config.initial (s.store.identity chip), t) = r₁ at *
  generalize serve e₂.device ops₂ (Config.initial (s.store.identity chip), t) = r₂ at *
  obtain ⟨c₁, m₁, u₁⟩ := r₁
  obtain ⟨c₂, m₂, u₂⟩ := r₂
  have hclear₁ : c₁.clear = .initial (s.store.identity chip) := congrArg Config.initial hidentity₁
  have hclear₂ : c₂.clear = .initial (s.store.identity chip) := congrArg Config.initial hidentity₂
  have hchip₁ : c₁.chip = chip := congrArg Identity.chip hidentity₁
  have hchip₂ : c₂.chip = chip := congrArg Identity.chip hidentity₂
  obtain ⟨hok₁, hconfig₁, hstore₁⟩ := device_resetSwitch_store (c := c₁) he₁ (hchip₁ ▸ hready₁) m₁
  obtain ⟨hok₂, hconfig₂, hstore₂⟩ := device_resetSwitch_store (c := c₂) he₂ (hchip₂ ▸ hready₂) m₂
  refine ⟨hok₁, hok₂, hconfig₁.trans hclear₁, hconfig₂.trans hclear₂, ?_⟩
  rw [hstore₁, hstore₂, ← resetWrites_clear c₁, ← resetWrites_clear c₂, hclear₁, hclear₂]
  exact (halike₁.trans halike₂.symm).sameContent hready₁.healthy hready₂.healthy

/-- VLANs on with two ports of a BCM5325E in one of them and a default tag that the chip does not have room for,
    applied, then managed mode and a look at a port. -/
def eventful : List Operation :=
  [.setVlanEnabled true, .setVlanPorts 2 [⟨0, false⟩, ⟨1, true⟩], .setPortPvid 0 16,
    .applyConfig, .setManaged true, .portLink 1, .readRegister ⟨Layout.tableEntry, .bits32⟩]

theorem resetSwitch_erases_eventful :
    ∃ t, runOn Engine.spi.device register (0, .new (.ofChip .bcm5325E)) = (.ok (.initial ⟨.bcm5325E, 0⟩), t) ∧
      (layer.device Engine.spi.device .resetSwitch
        (serve Engine.spi.device [] (.initial ⟨.bcm5325E, 0⟩, t))).1 = .ok () ∧
      (layer.device (Engine.mdio {}).device .resetSwitch
        (serve (Engine.mdio {}).device eventful (.initial ⟨.bcm5325E, 0⟩, t))).1 = .ok () ∧
      (layer.device Engine.spi.device .resetSwitch
        (serve Engine.spi.device [] (.initial ⟨.bcm5325E, 0⟩, t))).2.1 =
        .initial ⟨.bcm5325E, 0⟩ ∧
      (layer.device (Engine.mdio {}).device .resetSwitch
        (serve (Engine.mdio {}).device eventful (.initial ⟨.bcm5325E, 0⟩, t))).2.1 = .initial ⟨.bcm5325E, 0⟩ ∧
      (layer.device Engine.spi.device .resetSwitch
        (serve Engine.spi.device [] (.initial ⟨.bcm5325E, 0⟩, t))).2.2.2.store.SameContent
        (layer.device (Engine.mdio {}).device .resetSwitch
          (serve (Engine.mdio {}).device eventful (.initial ⟨.bcm5325E, 0⟩, t))).2.2.2.store := by
  have hspi : Engine.spi.Attached := trivial
  have hmdio : (Engine.mdio {}).Attached := rfl
  obtain ⟨t, hup, -⟩ := register_bcm5325E hspi
  exact ⟨t, hup, resetSwitch_erases hspi hspi hmdio (Simulation.reachable_new _) ⟨rfl, rfl, rfl⟩ rfl
    (Model.identifies (m := .ofChip .bcm5325E) rfl) (by decide) hup (List.forall_mem_nil _) (by decide)⟩

end

end Switch

end EtherSwitch
