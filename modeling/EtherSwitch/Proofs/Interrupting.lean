import EtherSwitch.Proofs.Overwriting

/-! The VLAN table while a configuration is being applied. Wherever the bus cuts that off, each entry is the one
    from before or the one that the configuration asks for, never one of another index
    (`Switch.applyConfig_tears_no_entry`). -/

namespace EtherSwitch
open Script

/-- Wherever the bus cuts a script off, the store has seen the first ones of its writes. -/
theorem Engine.runOn_faulty_does {α : Type} {e : Engine} {s : Simulation} (he : e.Attached) (hs : s.Reachable)
    (hfree : s.FaultFree) {p : Script α} (hp : Script.Uses Plain p) {a : α} {ws : List RegisterWrite}
    (hdoes : Store.Does p s.store a ws) (plan : FaultPlan IoError) (n : Nat) :
    ∃ done, done <+: ws ∧ (runOn e.faulty p (n, .start plan s)).2.2.device.store = s.store.writeAll done :=
  hdoes.passes _
    (passes_of_faulty (s := (n, .start plan s)) (hp.mono fun _ => he.serves hfree) ⟨rfl, hs.settled⟩)

namespace Config

/-- Partway through the writes that apply a configuration, a programmed entry is as it was or
    holds its word, or, if it is entry 1 of a fast Ethernet chip that is being flattened,
    nothing yet. No other entry changes. -/
theorem WellFormed.table_puts_partway {c : Config} (h : c.WellFormed) {s : Store} (hs : s.Healthy c.chip)
    {mode : BitVec 8}
    {done : List RegisterWrite} (hdone : done <+: (c.puts mode).map Put.taken) (index : UInt16) :
    (s.writeAll done).table index = s.table index ∨
      (c.chip.firstEntry ≤ index.toNat ∧ index < c.chip.numVlans) ∧
        ((s.writeAll done).table index = some (c.tableWord index) ∨
          c.chip.family = .fastEthernet ∧ c.vlanEnabled = false ∧ index = 1 ∧
            (s.writeAll done).table index = some 0) := by
  rcases hs.table_partway (h.programs_puts mode) hdone index with hkept | ⟨e, he, rfl, hword⟩
  · exact Or.inl hkept
  · obtain ⟨hfirst, hlt, hvalue⟩ := h.mem_tableEntries he
    rw [hword]
    refine Or.inr ⟨⟨hfirst, hlt⟩, hvalue.imp (congrArg some) ?_⟩
    exact fun ⟨hfamily, hoff, hone, hzero⟩ => ⟨hfamily, hoff, hone, congrArg some hzero⟩

/-- Wherever applying a configuration is cut off, applying it again cannot tell that it was begun. -/
theorem WellFormed.applyAlike_partway {c : Config} (h : c.WellFormed) {s : Store} (hs : s.Healthy c.chip)
    {done : List RegisterWrite} (hdone : done <+: c.writes s) : c.ApplyAlike (s.writeAll done) s where
  mode := by
    refine hs.registers_writeAll_keeps (l := Layout.switchMode)
      (c.chip.modeRegisters_disjoint _ (by decide)).2.2 rfl
      (P := fun v => withManaged c.vlanEnabled (v.setWidth 8) =
        withManaged c.vlanEnabled ((s.registers Layout.switchMode).setWidth 8))
      fun w hw hl => ?_
    rw [h.mode_puts (hdone.subset hw) hl, narrow_widen (by decide), withManaged_withManaged]
  others l hl := Store.registers_writeAll_of_ne s fun w hw heq => hl w (hdone.subset hw) heq.symm
  entries index hout := by
    rcases h.table_puts_partway hs hdone index with hkept | ⟨⟨hfirst, hlt⟩, -⟩
    · exact hkept
    · exact absurd hout (not_or.mpr ⟨Nat.not_lt.mpr hfirst, UInt16.not_le.mpr hlt⟩)

theorem WellFormed.tableWord_holds {c : Config} (h : c.WellFormed) (hon : c.vlanEnabled = true) {index : UInt16}
    (hlt : index < c.chip.numVlans) :
    ∃ list, c.vlanPorts index = .ok list ∧ c.EntryHolds list (c.tableWord index) := by
  refine ⟨c.members (c.vlan index), vlanPorts_of_lt hlt, ?_⟩
  rw [tableWord, if_pos hon]
  exact h.entryHolds (List.mem_of_getElem? (h.vlan_mem hlt))

end Config

namespace Switch
variable {c : Config} {e e' : Engine} {s : Simulation}

/-- However the bus fails while a configuration is applied, each entry of the VLAN table then is the one from
    before or the one that applying in one go leaves, except that entry 1 of the fast Ethernet chips may be
    empty while they are flattened. With VLANs on, an entry that changed has the members of its own index. -/
theorem applyConfig_tears_no_entry (hc : c.Reachable) (he : e.Attached) (he' : e'.Attached) (hs : s.Reachable)
    (hfree : s.FaultFree) (hchip : s.store.chip = some c.chip) (plan : FaultPlan IoError) (n n' : Nat)
    (index : UInt16) :
    (layer.device e'.device .applyConfig (c, n', s)).1 = .ok () ∧
    ((layer.device e.faulty .applyConfig (c, n, .start plan s)).2.2.2.device.store.table index =
      s.store.table index ∨
      (layer.device e.faulty .applyConfig (c, n, .start plan s)).2.2.2.device.store.table index =
        (layer.device e'.device .applyConfig (c, n', s)).2.2.2.store.table index ∨
      c.chip.family = .fastEthernet ∧ c.vlanEnabled = false ∧ index = 1 ∧
        (layer.device e.faulty .applyConfig (c, n, .start plan s)).2.2.2.device.store.table index = some 0) ∧
    (c.vlanEnabled = true →
      (layer.device e.faulty .applyConfig (c, n, .start plan s)).2.2.2.device.store.table index ≠
        s.store.table index →
      ∃ list raw, c.vlanPorts index = .ok list ∧ c.EntryHolds list raw ∧
        (layer.device e.faulty .applyConfig (c, n, .start plan s)).2.2.2.device.store.table index =
          some raw) := by
  have hwell := hc.wellFormed
  have hhealthy : s.store.Healthy c.chip := ⟨hchip, hfree.forwards⟩
  obtain ⟨hok, -, hwhole⟩ := device_applyConfig_store hwell he' hs hfree n'
  obtain ⟨done, hdone, hcut⟩ :=
    Engine.runOn_faulty_does he hs hfree (uses_applyConfig hwell) (does_applyConfig hwell s.store) plan n
  -- All that is left to know of the failing run is that it made the first ones of the writes.
  have hpartway := hwell.table_puts_partway hhealthy hdone index
  refine ⟨hok, ?_⟩
  rw [device_applyConfig e.faulty, hwhole, hcut]
  rcases hpartway with hkept | ⟨⟨hfirst, hlt⟩, hword | hcleared⟩
  · exact ⟨Or.inl hkept, fun _ hchanged => absurd hkept hchanged⟩
  · refine ⟨Or.inr (Or.inl ?_), fun hon _ => ?_⟩
    · rw [hword, (hwell.table_puts hhealthy index).1 hfirst hlt]
    · obtain ⟨list, hlist, hholds⟩ := hwell.tableWord_holds hon hlt
      exact ⟨list, _, hlist, hholds, hword⟩
  · exact ⟨Or.inr (Or.inr hcleared), fun hon _ => absurd (hon.symm.trans hcleared.2.1) (by decide)⟩

/-- A BCM5325E on which some word is staged for the table. -/
def staged : Simulation := (Simulation.new (.ofChip .bcm5325E)).setRegister Layout.tableEntry 0x00123456

theorem staged_reachable : staged.Reachable := (Simulation.reachable_new _).setRegister _ _

/-- Applying a configuration to it while the bus fails from the thirty-fifth call on, when the word of entry 2
    is staged and the command to store it is not given yet. -/
def stagedOnly : Except Error Unit × Config × Nat × Faulty IoError Simulation :=
  layer.device Engine.spi.faulty .applyConfig (pair, 0, .start (.after 34 .injected) staged)

theorem applyConfig_tears_no_staged_entry :
    pair.vlanEnabled = true ∧ stagedOnly.1 = .error (.io .injected) ∧
      stagedOnly.2.2.2.device.store.registers Layout.tableEntry = (pair.tableWord 2).setWidth 64 ∧
      (layer.device (Engine.mdio {}).device .applyConfig (pair, 0, staged)).1 = .ok () ∧
      (stagedOnly.2.2.2.device.store.table 2 = staged.store.table 2 ∨
        stagedOnly.2.2.2.device.store.table 2 =
          (layer.device (Engine.mdio {}).device .applyConfig (pair, 0, staged)).2.2.2.store.table 2 ∨
        pair.chip.family = .fastEthernet ∧ pair.vlanEnabled = false ∧ (2 : UInt16) = 1 ∧
          stagedOnly.2.2.2.device.store.table 2 = some 0) ∧
      (pair.vlanEnabled = true → stagedOnly.2.2.2.device.store.table 2 ≠ staged.store.table 2 →
        ∃ list raw, pair.vlanPorts 2 = .ok list ∧ pair.EntryHolds list raw ∧
          stagedOnly.2.2.2.device.store.table 2 = some raw) := by
  have hspi : Engine.spi.Attached := trivial
  have hmdio : (Engine.mdio {}).Attached := rfl
  have hentry := applyConfig_tears_no_entry pair_reachable hspi hmdio staged_reachable ⟨rfl, rfl, rfl⟩ rfl
    (.after 34 .injected) 0 0 2
  exact ⟨rfl, rfl, rfl, hentry⟩

end Switch

end EtherSwitch
