import EtherSwitch.Proofs.Applying
import EtherSwitch.Proofs.Runs

/-! How a fast Ethernet chip finds the VLAN of what comes in untagged. The port gives it its default tag,
    the sum of the port's VLAN and the base; the table is searched for the entry with that id, whose lower
    four bits are the place of the entry and whose upper bits the entry holds. The two are programmed
    apart from each other and agree because the base is a multiple of the table size, and no port's VLAN
    is beyond it (`Switch.tags_resolve`). -/

namespace EtherSwitch
open Script

/-- The VLAN id of the entry at a place of the table. -/
def FastEntry.vid (e : FastEntry) (index : UInt16) : Nat := e.vidHigh.toNat * 16 + index.toNat

/-- What comes in at a port without a tag gets this VLAN id. -/
def Store.defaultVid (s : Store) (port : UInt8) : Nat := (s.registers (Layout.defaultTag port)).toNat

/-- The valid entry at this place of the table has the VLAN id. -/
def Store.Resolves (s : Store) (vid : Nat) (index : UInt16) : Prop :=
  ∃ raw, s.table index = some raw ∧ (FastEntry.decode raw).valid = true ∧ (FastEntry.decode raw).vid index = vid

namespace Config
variable {c : Config}

/-! ### Tags -/

theorem WellFormed.pvid_le (h : c.WellFormed) (hfast : c.chip.family = .fastEthernet) {port : UInt8}
    (hport : port < c.chip.numPorts) : (c.port port).pvid.toNat ≤ 15 := by
  have hmax : c.chip.maxVid.toNat = 15 := by
    rw [Chip.maxVid, Chip.vidBits, hfast]
    rfl
  exact hmax ▸ UInt16.le_iff_toNat_le.mp (h.pvid _ (List.mem_of_getElem? (h.port_mem hport)))

/-- Every default tag that is written is a VLAN id. -/
theorem WellFormed.tag_le (h : c.WellFormed) (hfast : c.chip.family = .fastEthernet)
    (hon : c.vlanEnabled = true) {mode : BitVec 8} {w : RegisterWrite} (hw : w ∈ (c.puts mode).map Put.taken)
    (hl : w.location ∈ c.chip.tagRegisters) : w.value.toNat ≤ 4095 := by
  obtain ⟨hmodes, -, htable⟩ := c.chip.tagRegisters_disjoint _ hl
  rw [taken_puts_of_enabled hon] at hw
  rcases List.mem_append.mp hw with hw | hw
  · exact absurd (location_modeWrites hw) hmodes
  · rcases List.mem_append.mp hw with hw | hw
    · obtain ⟨port, hport, htag⟩ := List.mem_map.mp hl
      have hport := mem_portsBelow.mp hport
      have hbase := h.vlanBase_le
      have hpvid := h.pvid_le hfast hport
      rw [(h.tag_writes hport hw htag.symm).2, h.toNat_tag hport]
      omega
    · exact absurd (mem_entryPuts _ hw) htable

/-! ### Entries -/

section
variable {s t : Store} {index : UInt16}

/-- Just the entries with members are valid, and these have the base and their place for a VLAN id. -/
theorem Enforced.entry (h : c.Enforced s t) (hc : c.WellFormed) (hfast : c.chip.family = .fastEthernet)
    (hindex : index < c.chip.numVlans) :
    ∃ raw, t.table index = some raw ∧ ((FastEntry.decode raw).valid = true ↔ c.members (c.vlan index) ≠ []) ∧
      (c.members (c.vlan index) ≠ [] → (FastEntry.decode raw).vid index = c.vlanBase.toNat + index.toNat) := by
  have hfirst : c.chip.firstEntry = 0 := by rw [Chip.firstEntry, hfast]
  obtain ⟨list, raw, hlist, hraw, hholds⟩ := h.entries index (hfirst ▸ Nat.zero_le _) hindex
  obtain rfl := Except.ok.inj ((vlanPorts_of_lt hindex).symm.trans hlist)
  unfold EntryHolds at hholds
  simp only [hfast] at hholds
  obtain ⟨-, hmembers, hempty⟩ := hholds
  refine ⟨raw, hraw, ⟨fun hvalid hnone => ?_, fun hne => (hmembers hne).1⟩, fun hne => ?_⟩
  · rw [hempty hnone] at hvalid
    exact absurd hvalid (by decide)
  · have hmultiple := hc.base
    rw [FastEntry.vid, (hmembers hne).2]
    omega

/-- A default tag is the VLAN id of an entry just if the port is in the VLAN of the entry. -/
theorem Enforced.defaultVid_eq_iff (h : c.Enforced s t) {port : UInt8} (hport : port < c.chip.numPorts)
    (huntagged : (c.port port).tagged = false) {vid : Nat} (hvid : vid = c.vlanBase.toNat + index.toNat) :
    t.defaultVid port = vid ↔ (c.port port).pvid = index := by
  rw [Store.defaultVid, h.tags port hport huntagged, hvid, ← UInt16.toNat_inj]
  omega

theorem Enforced.resolves_iff (h : c.Enforced s t) (hc : c.WellFormed) (hfast : c.chip.family = .fastEthernet)
    {port : UInt8} (hport : port < c.chip.numPorts) (huntagged : (c.port port).tagged = false)
    (hindex : index < c.chip.numVlans) :
    t.Resolves (t.defaultVid port) index ↔ index = (c.port port).pvid ∧ c.members (c.vlan index) ≠ [] := by
  obtain ⟨raw, hraw, hvalid, hvid⟩ := h.entry hc hfast hindex
  constructor
  · rintro ⟨raw', hraw', hvalid', hfound⟩
    obtain rfl := Option.some.inj (hraw.symm.trans hraw')
    have hmembers := hvalid.mp hvalid'
    exact ⟨((h.defaultVid_eq_iff hport huntagged (hvid hmembers)).mp hfound.symm).symm, hmembers⟩
  · rintro ⟨hpvid, hmembers⟩
    exact ⟨raw, hraw, hvalid.mpr hmembers,
      ((h.defaultVid_eq_iff hport huntagged (hvid hmembers)).mpr hpvid.symm).symm⟩

end

end Config

namespace Switch
variable {c : Config} {e : Engine} {s : Simulation}

/-- After applying a configuration with VLANs to a fast Ethernet chip, all the default tags that were
    written are VLAN ids, and what comes in untagged at a port that sends untagged is found in the table at
    the VLAN of the port and nowhere else. -/
theorem tags_resolve (hc : c.Reachable) (hfast : c.chip.family = .fastEthernet) (hon : c.vlanEnabled = true)
    (he : e.Attached) (hs : s.Reachable) (hchip : s.store.chip = some c.chip) (hfree : s.FaultFree) (n : Nat) :
    ∃ t ws, layer.device e.device .applyConfig (c, n, s) = (.ok (), c, t) ∧
      t.2.store.writes = s.store.writes ++ ws ∧
      (∀ w ∈ ws, w.location ∈ c.chip.tagRegisters → w.value.toNat ≤ 4095) ∧
      ∀ port, port < c.chip.numPorts → (c.port port).tagged = false → ∀ index, index < c.chip.numVlans →
        (c.members (c.vlan index) ≠ [] → ∃ raw, t.2.store.table index = some raw ∧
          (t.2.store.defaultVid port = (FastEntry.decode raw).vidHigh.toNat * 16 + index.toNat ↔
            (c.port port).pvid = index)) ∧
        (t.2.store.Resolves (t.2.store.defaultVid port) index ↔
          index = (c.port port).pvid ∧ c.members (c.vlan index) ≠ []) := by
  have hwell := hc.wellFormed
  obtain ⟨hok, hsame, hstore⟩ := device_applyConfig_store hwell he hs hfree n
  have henforced := hwell.enforced hon (s := s.store) ⟨hchip, hfree.forwards⟩
  rw [← hstore] at henforced
  refine ⟨_, _, Prod.ext hok (Prod.ext hsame rfl),
    (congrArg Store.writes hstore).trans (Store.writes_writeAll _ _),
    fun w hw hl => hwell.tag_le hfast hon hw hl, fun port hport huntagged index hindex =>
      ⟨fun hmembers => ?_, ?_⟩⟩
  · obtain ⟨raw, hraw, -, hvid⟩ := henforced.entry hwell hfast hindex
    exact ⟨raw, hraw, henforced.defaultVid_eq_iff hport huntagged (hvid hmembers)⟩
  · exact henforced.resolves_iff hwell hfast hport huntagged hindex

/-- With the base at 0x123, which is cut to 0x120, port 0 of the pair gets into entry 2 by the tag 0x122. -/
theorem tags_resolve_pair :
    let c := Operation.after (.setVlanBase 0x123) pair
    ∃ t, layer.device Engine.spi.device .applyConfig (c, 0, .new (.ofChip .bcm5325E)) = (.ok (), c, t) ∧
      t.2.store.Resolves (t.2.store.defaultVid 0) 2 ∧ ¬t.2.store.Resolves (t.2.store.defaultVid 0) 3 ∧
      ∃ raw, t.2.store.table 2 = some raw ∧
        t.2.store.defaultVid 0 = (FastEntry.decode raw).vidHigh.toNat * 16 + 2 := by
  intro c
  have hc : c.Reachable := pair_reachable.after _
  obtain ⟨t, ws, hrun, -, -, hports⟩ :=
    tags_resolve (e := .spi) (s := .new (.ofChip .bcm5325E)) hc rfl rfl trivial
    (Simulation.reachable_new _) rfl ⟨rfl, rfl, rfl⟩ 0
  obtain ⟨htag, hfound⟩ := hports 0 (by decide) rfl 2 (by decide)
  obtain ⟨raw, hraw, htag⟩ := htag (by decide)
  refine ⟨t, hrun, hfound.mpr (by decide), fun hother => ?_, raw, hraw, htag.mpr (by decide)⟩
  exact absurd ((hports 0 (by decide) rfl 3 (by decide)).2.mp hother).1 (by decide)

end Switch

end EtherSwitch
