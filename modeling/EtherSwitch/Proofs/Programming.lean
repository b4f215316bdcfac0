import EtherSwitch.Proofs.Configuration
import EtherSwitch.Proofs.Entries
import EtherSwitch.Proofs.Store

/-! What applying a configuration writes. All that the chip is asked for is its switch mode; with that the
    writes are a list that depends on the configuration alone (`Switch.applyConfig_eq`). -/

namespace EtherSwitch
open Script

/-! ### The writes -/

/-- The writes that store an entry at its index of the VLAN table. -/
def Chip.entryPuts (chip : Chip) (e : UInt16 × BitVec 32) : List Put :=
  match chip.family with
  | .fastEthernet =>
    [.bits32 Layout.tableEntry e.2, .bits16 Layout.tableAccess (Layout.writeCommand e.1.toUInt8)]
  | .gigabit =>
    [.bits16 chip.tableWindow.index e.1.toBitVec, .bits32 chip.tableWindow.entry e.2,
      .bits8 chip.tableWindow.access Layout.windowStart]

/-- The first entry of the VLAN table that is programmed. -/
def Chip.firstEntry (chip : Chip) : Nat :=
  match chip.family with
  | .fastEthernet => 0
  | .gigabit => 1

/-- The programmed entries of the VLAN table, all empty. -/
def Chip.clearedEntries (chip : Chip) : List (UInt16 × BitVec 32) :=
  ((List.range chip.numVlans.toNat).drop chip.firstEntry).map fun i => (UInt16.ofNat i, 0)

/-- The VLAN table while VLANs are off, later entries over earlier ones. -/
def Chip.flatEntries (chip : Chip) : List (UInt16 × BitVec 32) :=
  match chip.family with
  | .fastEthernet => chip.clearedEntries ++ [(1, 0x00100fff)]
  | .gigabit => chip.clearedEntries

/-- The writes to VLAN controls 0, 1, 4 and 5. -/
def controlPuts (enforced : Bool) : List Put :=
  [.bits8 Layout.vlanControl0 (if enforced then 0xe0 else 0),
    .bits8 Layout.vlanControl1 (if enforced then 0x0e else 0),
    .bits8 Layout.vlanControl4 (if enforced then 0x40 else 0),
      .bits8 Layout.vlanControl5 (if enforced then 0x08 else 0)]

/-- The writes that clear the control of some ports and of the CPU port. -/
def clearPuts (ports : List UInt8) : List Put :=
  ports.map (fun port => .bits8 (Layout.portControl port) 0) ++ [.bits8 Layout.cpuControl 0]

/-- The writes that give the ports that send untagged their default tags. -/
def tagPuts (ports : List PortConfig) (tag : PortConfig → UInt16) : List Put :=
  ports.zipIdx.flatMap fun (p, i) =>
    if p.tagged then [] else [.bits16 (Layout.defaultTag (UInt8.ofNat i)) (tag p).toBitVec]

/-- The switch mode with managed mode on or off. -/
def withManaged (on : Bool) (mode : BitVec 8) : BitVec 8 :=
  if on then mode ||| Layout.managed else mode &&& ~~~Layout.managed

namespace Config

/-- What the VLAN table is to hold for an entry. -/
def entryWord (c : Config) (entry : VlanEntry) : BitVec 32 :=
  match c.chip.family with
  | .fastEthernet => FastEthernet.entryWord entry.members (c.untagMask &&& entry.members)
    (FastEthernet.vidHigh c.vlanBase)
  | .gigabit => (GigabitEntry.mk entry.members (c.untagMask &&& entry.members)).encode

/-- The entries of the VLAN table with VLANs on. -/
def entries (c : Config) : List (UInt16 × BitVec 32) :=
  (c.vlans.zipIdx.drop c.chip.firstEntry).map fun (entry, i) => (UInt16.ofNat i, c.entryWord entry)

/-- The writes that apply a configuration to a chip with the given switch mode. -/
def puts (c : Config) (mode : BitVec 8) : List Put :=
  controlPuts c.vlanEnabled ++ [.bits8 Layout.switchMode (withManaged c.vlanEnabled mode)] ++
    if c.vlanEnabled then
      tagPuts c.ports (fun p => p.pvid + c.vlanBase) ++ c.entries.flatMap c.chip.entryPuts
    else
      c.chip.flatEntries.flatMap c.chip.entryPuts ++ clearPuts (portsBelow (c.chip.lastPhyPort + 1)) ++
        (portsBelow c.chip.numPorts).map fun port => .bits16 (Layout.defaultTag port) 0

end Config

/-! ### The scripts -/

theorem taken_clear (chip : Chip) :
    (clearPuts (portsBelow (chip.lastPhyPort + 1))).map Put.taken =
      chip.controlRegisters.map (RegisterWrite.mk · 0) := by
  simp [clearPuts, Chip.controlRegisters, Function.comp_def]

theorem clearPortControl_eq (ports : List UInt8) : clearPortControl ports = emit (clearPuts ports) := by
  rw [clearPortControl, forM_eq_emit (g := fun port => [.bits8 (Layout.portControl port) 0]) fun port _ =>
    write8_eq _ _,
    write8_eq, ← emit_append, clearPuts, List.map_eq_flatMap]

theorem clearDefaultTags_eq (chip : Chip) :
    clearDefaultTags chip =
      emit ((portsBelow chip.numPorts).map fun port => .bits16 (Layout.defaultTag port) 0) := by
  rw [clearDefaultTags, forM_eq_emit (g := fun port => [.bits16 (Layout.defaultTag port) 0]) fun port _ =>
    write16_eq _ _,
    List.map_eq_flatMap]

theorem setDefaultTags_eq (ports : List PortConfig) (tag : PortConfig → UInt16) :
    setDefaultTags ports tag = emit (tagPuts ports tag) := by
  rw [setDefaultTags, tagPuts]
  refine forM_eq_emit fun ⟨⟨pvid, tagged⟩, i⟩ _ => ?_
  cases tagged with
  | true => rfl
  | false => exact write16_eq _ _

theorem setVlanControls_eq (enforced : Bool) : setVlanControls enforced = emit (controlPuts enforced) := by
  cases enforced <;> simp only [setVlanControls, write8_eq, ← emit_append] <;> rfl

theorem setManaged_eq (on : Bool) :
    setManaged on true = (do
      let mode ← read8 Layout.switchMode
      emit (controlPuts on ++ [.bits8 Layout.switchMode (withManaged on mode)])) := by
  rw [setManaged]
  refine bind_congr fun mode => ?_
  rw [emit_append, ← write8_eq, ← setVlanControls_eq]
  rfl

theorem checkVlanIndex_eq {chip : Chip} {index : UInt16} (h : index < chip.numVlans) :
    (liftM (Config.checkVlanIndex chip index) : Script Unit) = pure () := by
  rw [Config.checkVlanIndex, if_pos h]
  rfl

theorem FastEthernet.writeEntry_eq {chip : Chip} (hfamily : chip.family = .fastEthernet) {index : UInt16}
    (h : index < chip.numVlans) (members untagged : PortMask) (vidHigh : BitVec 8) :
    writeEntry chip index members untagged vidHigh =
      emit (chip.entryPuts (index, entryWord members untagged vidHigh)) := by
  rw [writeEntry, checkVlanIndex_eq h, pure_bind, write32_eq, write16_eq, ← emit_append,
    Chip.entryPuts, hfamily]
  rfl

theorem Gigabit.writeEntry_eq {chip : Chip} (hfamily : chip.family = .gigabit) (index : UInt16)
    (members untagged : PortMask) :
    writeEntry chip index members untagged =
      emit (chip.entryPuts (index, (GigabitEntry.mk members untagged).encode)) := by
  rw [writeEntry, write16_eq, write32_eq, write8_eq, ← emit_append, ← emit_append, Chip.entryPuts, hfamily]
  rfl

section
variable {c : Config} (h : c.WellFormed)
include h

theorem index_lt {entry : VlanEntry} {i : Nat} (hi : (entry, i) ∈ c.vlans.zipIdx) :
    UInt16.ofNat i < c.chip.numVlans := by
  obtain ⟨hlt, hplace⟩ := h.vlan_place (List.mem_zipIdx_iff_getElem?.mp hi)
  rwa [UInt16.lt_iff_toNat_lt, hplace]

omit h in
theorem index_lt_of_range {chip : Chip} {i : Nat} (hi : i ∈ List.range chip.numVlans.toNat) :
    UInt16.ofNat i < chip.numVlans := by
  have hlt := List.mem_range.mp hi
  rwa [UInt16.lt_iff_toNat_lt, UInt16.toNat_ofNat_of_lt' (Nat.lt_trans hlt (UInt16.toNat_lt _))]

theorem FastEthernet.apply_eq (hfamily : c.chip.family = .fastEthernet) :
    apply c.chip c = (do
      let mode ← read8 Layout.switchMode
      emit (c.puts mode)) := by
  rw [apply, setManaged_eq, bind_assoc]
  refine bind_congr fun mode => ?_
  rw [Config.puts]
  refine Eq.trans (bind_congr fun _ => ?_) (emit_append _ _).symm
  cases c.vlanEnabled with
  | true =>
    rw [if_pos rfl, if_pos rfl, applyVlans, setDefaultTags_eq, emit_append]
    refine bind_congr fun _ => ?_
    rw [Config.entries, Chip.firstEntry, hfamily, List.flatMap_map]
    refine forM_eq_emit fun ⟨entry, i⟩ hi => ?_
    have hword :
        c.entryWord entry = entryWord entry.members (c.untagMask &&& entry.members) (vidHigh c.vlanBase) := by
      unfold Config.entryWord
      rw [hfamily]
    show _ = emit (c.chip.entryPuts (UInt16.ofNat i, c.entryWord entry))
    rw [hword]
    exact writeEntry_eq hfamily (index_lt h hi) _ _ _
  | false =>
    have hports : c.chip.cpuPort = c.chip.lastPhyPort + 1 := by
      cases hchip : c.chip with
      | bcm5325E | bcm5325F | bcm5325M => rfl
      | _ => simp [hchip, Chip.family] at hfamily
    have hclear : ((List.range c.chip.numVlans.toNat).forM fun i => writeEntry c.chip (UInt16.ofNat i) 0 0 0) =
        emit ((List.range c.chip.numVlans.toNat).flatMap fun i => c.chip.entryPuts (UInt16.ofNat i, 0)) :=
      forM_eq_emit fun i hi => writeEntry_eq hfamily (index_lt_of_range hi) 0 0 0
    have hflat : writeEntry c.chip flatVlan FastEntry.ports FastEntry.ports 0 =
        emit (c.chip.entryPuts (1, 0x00100fff)) :=
      writeEntry_eq hfamily (show flatVlan < 16 by decide) _ _ _
    have hentries : c.chip.flatEntries.flatMap c.chip.entryPuts =
        ((List.range c.chip.numVlans.toNat).flatMap fun i => c.chip.entryPuts (UInt16.ofNat i, 0)) ++
          c.chip.entryPuts (1, 0x00100fff) := by
      unfold Chip.flatEntries Chip.clearedEntries Chip.firstEntry
      rw [hfamily]
      refine List.flatMap_append.trans ?_
      rw [List.flatMap_map, List.flatMap_singleton]
      rfl
    rw [if_neg Bool.false_ne_true, if_neg Bool.false_ne_true, applyFlat, hclear, hflat,
      clearPortControl_eq, hports, clearDefaultTags_eq, hentries]
    simp only [emit_append, bind_assoc]

theorem Gigabit.apply_eq (hfamily : c.chip.family = .gigabit) :
    apply c.chip c = (do
      let mode ← read8 Layout.switchMode
      emit (c.puts mode)) := by
  rw [apply, setManaged_eq, bind_assoc]
  refine bind_congr fun mode => ?_
  rw [Config.puts]
  refine Eq.trans (bind_congr fun _ => ?_) (emit_append _ _).symm
  have hbase : (fun p : PortConfig => p.pvid + c.vlanBase) = PortConfig.pvid := by
    rw [h.base_gigabit hfamily]
    exact funext fun p => UInt16.add_zero _
  cases c.vlanEnabled with
  | true =>
    rw [if_pos rfl, if_pos rfl, applyVlans, setDefaultTags_eq, hbase, emit_append]
    refine bind_congr fun _ => ?_
    rw [Config.entries, Chip.firstEntry, hfamily, List.flatMap_map]
    refine forM_eq_emit fun ⟨entry, i⟩ hi => ?_
    have hword :
        c.entryWord entry = (GigabitEntry.mk entry.members (c.untagMask &&& entry.members)).encode := by
      unfold Config.entryWord
      rw [hfamily]
    show _ = emit (c.chip.entryPuts (UInt16.ofNat i, c.entryWord entry))
    rw [hword]
    exact writeEntry_eq hfamily _ _ _
  | false =>
    have hclear :
        (((List.range c.chip.numVlans.toNat).drop 1).forM fun i => writeEntry c.chip (UInt16.ofNat i) 0 0) =
        emit (((List.range c.chip.numVlans.toNat).drop 1).flatMap fun i =>
          c.chip.entryPuts (UInt16.ofNat i, 0)) :=
      forM_eq_emit fun i _ => writeEntry_eq hfamily _ 0 0
    have hentries : c.chip.flatEntries.flatMap c.chip.entryPuts =
        ((List.range c.chip.numVlans.toNat).drop 1).flatMap fun i => c.chip.entryPuts (UInt16.ofNat i, 0) := by
      unfold Chip.flatEntries Chip.clearedEntries Chip.firstEntry
      rw [hfamily]
      exact List.flatMap_map _ _ _
    rw [if_neg Bool.false_ne_true, if_neg Bool.false_ne_true, applyFlat, hclear, clearPortControl_eq,
      clearDefaultTags_eq, hentries]
    simp only [emit_append, bind_assoc]

/-- Applying a configuration reads the switch mode and makes the writes that follow from it. -/
theorem Switch.applyConfig_eq :
    applyConfig c = (do
      let mode ← read8 Layout.switchMode
      emit (c.puts mode)) := by
  rw [applyConfig]
  cases hfamily : c.chip.family with
  | fastEthernet => exact FastEthernet.apply_eq h hfamily
  | gigabit => exact Gigabit.apply_eq h hfamily

end

end EtherSwitch
