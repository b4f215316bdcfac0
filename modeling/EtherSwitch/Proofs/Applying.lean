import EtherSwitch.Proofs.Engine
import EtherSwitch.Proofs.Table

/-! What applying a configuration makes of the chip, whatever the chip held before and whichever engine
    reaches it: with VLANs on the chip enforces exactly what the configuration says
    (`applyConfig_enforces`), with VLANs off it is flat (`applyConfig_flattens`). -/

namespace EtherSwitch
open Script

/-! ### The writes, block by block -/

/-- What is written to the VLAN controls and to the switch mode. -/
def modeWrites (on : Bool) (mode : BitVec 8) : List RegisterWrite :=
  [⟨Layout.vlanControl0, if on then 0xe0 else 0⟩, ⟨Layout.vlanControl1, if on then 0x0e else 0⟩,
    ⟨Layout.vlanControl4, if on then 0x40 else 0⟩, ⟨Layout.vlanControl5, if on then 0x08 else 0⟩,
    ⟨Layout.switchMode, (withManaged on mode).setWidth 64⟩]

theorem taken_mode (on : Bool) (mode : BitVec 8) :
    (controlPuts on ++ [Put.bits8 Layout.switchMode (withManaged on mode)]).map Put.taken =
      modeWrites on mode := by
  cases on <;> simp [controlPuts, modeWrites]

theorem location_modeWrites {on : Bool} {mode : BitVec 8} {w : RegisterWrite} (hw : w ∈ modeWrites on mode) :
    w.location ∈ Layout.modeRegisters := List.mem_map_of_mem (f := RegisterWrite.location) hw

theorem taken_clearTags (chip : Chip) :
    ((portsBelow chip.numPorts).map fun port => Put.bits16 (Layout.defaultTag port) 0).map Put.taken =
      chip.tagRegisters.map (RegisterWrite.mk · 0) := by
  simp [Chip.tagRegisters, Function.comp_def]

theorem mem_tagPuts {ports : List PortConfig} {tag : PortConfig → UInt16} {w : RegisterWrite} :
    w ∈ (tagPuts ports tag).map Put.taken ↔ ∃ i p, ports[i]? = some p ∧ p.tagged = false ∧
      w = ⟨Layout.defaultTag (UInt8.ofNat i), (tag p).toBitVec.setWidth 64⟩ := by
  rw [tagPuts, List.mem_map]
  constructor
  · rintro ⟨put, hput, rfl⟩
    obtain ⟨⟨p, i⟩, hi, hput⟩ := List.mem_flatMap.mp hput
    have hput : put ∈ if p.tagged then []
        else [Put.bits16 (Layout.defaultTag (UInt8.ofNat i)) (tag p).toBitVec] := hput
    split at hput
    · cases hput
    case isFalse htag =>
      obtain rfl := List.mem_singleton.mp hput
      exact ⟨i, p, List.mem_zipIdx_iff_getElem?.mp hi, eq_false_of_ne_true htag, Put.taken_bits16 _ _⟩
  · rintro ⟨i, p, hi, htag, rfl⟩
    refine ⟨.bits16 (Layout.defaultTag (UInt8.ofNat i)) (tag p).toBitVec, ?_, Put.taken_bits16 _ _⟩
    refine List.mem_flatMap.mpr ⟨(p, i), List.mem_zipIdx_iff_getElem?.mpr hi, ?_⟩
    show _ ∈ if p.tagged then [] else _
    rw [htag]
    exact List.mem_singleton.mpr rfl

theorem locations_entryPuts (chip : Chip) (e : UInt16 × BitVec 32) :
    (chip.entryPuts e).map (fun p => p.address.location) = chip.tableRegisters := by
  unfold Chip.entryPuts Chip.tableRegisters
  cases chip.family <;> rfl

theorem mem_entryPuts {chip : Chip} (entries : List (UInt16 × BitVec 32)) {w : RegisterWrite}
    (h : w ∈ (entries.flatMap chip.entryPuts).map Put.taken) : w.location ∈ chip.tableRegisters := by
  obtain ⟨put, hput, rfl⟩ := List.mem_map.mp h
  obtain ⟨e, -, hput⟩ := List.mem_flatMap.mp hput
  rw [← locations_entryPuts chip e]
  exact List.mem_map.mpr ⟨put, hput, rfl⟩

/-! ### The store afterwards -/

namespace Config

/-- What applying the configuration to a store writes. -/
def writes (c : Config) (s : Store) : List RegisterWrite :=
  (c.puts ((s.registers Layout.switchMode).setWidth 8)).map Put.taken

/-- The VLAN controls are those of VLANs on or off, and the switch mode has kept its low byte but for managed
    mode. -/
structure ModeSet (on : Bool) (s t : Store) : Prop where
  control0 : t.registers Layout.vlanControl0 = if on then 0xe0 else 0
  control1 : t.registers Layout.vlanControl1 = if on then 0x0e else 0
  control4 : t.registers Layout.vlanControl4 = if on then 0x40 else 0
  control5 : t.registers Layout.vlanControl5 = if on then 0x08 else 0
  switchMode :
  t.registers Layout.switchMode = (withManaged on ((s.registers Layout.switchMode).setWidth 8)).setWidth 64

theorem modeSet_of_forwards {s : Store} (h : s.forwardStuck = false) (on : Bool) :
    ModeSet on s (s.writeAll (modeWrites on ((s.registers Layout.switchMode).setWidth 8))) := by
  have hset : ∀ w ∈ modeWrites on ((s.registers Layout.switchMode).setWidth 8),
      (s.writeAll (modeWrites on ((s.registers Layout.switchMode).setWidth 8))).registers
        w.location = w.value :=
    fun w hw => Store.registers_writeAll_of_nodup hw (s.mode_ne_command (location_modeWrites hw))
      (Store.latched_of_forwards h) (show Layout.modeRegisters.Nodup by decide)
  exact ⟨hset _ (.head _), hset _ (.tail _ (.head _)), hset _ (.tail _ (.tail _ (.head _))),
    hset _ (.tail _ (.tail _ (.tail _ (.head _)))), hset _ (.tail _ (.tail _ (.tail _ (.tail _ (.head _)))))⟩

theorem modeSet_modeWrites {s : Store} {chip : Chip} (h : s.Healthy chip) (on : Bool) :
    ModeSet on s (s.writeAll (modeWrites on ((s.registers Layout.switchMode).setWidth 8))) ∧
      (s.writeAll (modeWrites on ((s.registers Layout.switchMode).setWidth 8))).table = s.table ∧
      ∀ l, l ∉ Layout.modeRegisters →
        (s.writeAll (modeWrites on ((s.registers Layout.switchMode).setWidth 8))).registers l =
          s.registers l := by
  have hmode : ∀ w ∈ modeWrites on ((s.registers Layout.switchMode).setWidth 8),
      w.location ∈ Layout.modeRegisters :=
    fun _ hw => location_modeWrites hw
  refine ⟨modeSet_of_forwards h.forwards on, ?_, ?_⟩
  · exact h.table_writeAll fun w hw => (chip.modeRegisters_disjoint _ (hmode w hw)).2.2
  · exact fun l hl => Store.registers_writeAll_outside s hmode hl

theorem ModeSet.writeAll {on : Bool} {s t : Store} (h : ModeSet on s t) {ws : List RegisterWrite}
    (hws : ∀ w ∈ ws, w.location ∉ Layout.modeRegisters) : ModeSet on s (t.writeAll ws) := by
  have hkeep : ∀ l ∈ Layout.modeRegisters, (t.writeAll ws).registers l = t.registers l := fun l hl =>
    Store.registers_writeAll_of_ne t fun w hw heq => hws w hw (heq ▸ hl)
  exact ⟨(hkeep _ (by decide)).trans h.control0, (hkeep _ (by decide)).trans h.control1,
    (hkeep _ (by decide)).trans h.control4, (hkeep _ (by decide)).trans h.control5,
    (hkeep _ (by decide)).trans h.switchMode⟩

/-- An entry of the chip's table says what the list of its members and the base of the configuration say. -/
def EntryHolds (c : Config) (list : List VlanPort) (raw : BitVec 32) : Prop :=
  match c.chip.family with
  | .fastEthernet =>
    Lists (FastEntry.decode raw).members (FastEntry.decode raw).untagged list ∧
      (list ≠ [] → (FastEntry.decode raw).valid = true ∧
        (FastEntry.decode raw).vidHigh.toNat = c.vlanBase.toNat / 16) ∧
      (list = [] → raw = 0)
  | .gigabit => Lists (GigabitEntry.decode raw).members (GigabitEntry.decode raw).untagged list

/-- The store `t` enforces the VLANs of the configuration, and is like `s` in everything else but the
    registers through which the table is programmed. -/
structure Enforced (c : Config) (s t : Store) : Prop where
  entries : ∀ index : UInt16, c.chip.firstEntry ≤ index.toNat → index < c.chip.numVlans →
    ∃ list raw, c.vlanPorts index = .ok list ∧ t.table index = some raw ∧ c.EntryHolds list raw
  otherEntries : ∀ index : UInt16, index.toNat < c.chip.firstEntry ∨ c.chip.numVlans ≤ index →
    t.table index = s.table index
  tags : ∀ port < c.chip.numPorts, (c.port port).tagged = false →
    (t.registers (Layout.defaultTag port)).toNat = (c.port port).pvid.toNat + c.vlanBase.toNat
  taggedPorts : ∀ port < c.chip.numPorts, (c.port port).tagged = true →
    t.registers (Layout.defaultTag port) = s.registers (Layout.defaultTag port)
  modes : ModeSet true s t
  others : ∀ l, l ∉ Layout.modeRegisters → l ∉ c.chip.tagRegisters → l ∉ c.chip.tableRegisters →
    t.registers l = s.registers l

section
variable {c : Config} (h : c.WellFormed)
include h

theorem WellFormed.vidHigh_eq : (FastEthernet.vidHigh c.vlanBase).toNat = c.vlanBase.toNat / 16 := by
  have hle : c.vlanBase.toNat ≤ 4095 := UInt16.le_iff_toNat_le.mp h.base_le
  rw [FastEthernet.vidHigh, BitVec.toNat_setWidth, BitVec.toNat_ushiftRight, Nat.shiftRight_eq_div_pow]
  have hhigh : c.vlanBase.toNat / 16 < 256 := by omega
  exact Nat.mod_eq_of_lt hhigh

/-- What the table is to hold for an entry says what the entry says. -/
theorem WellFormed.entryHolds {entry : VlanEntry} (he : entry ∈ c.vlans) :
    c.EntryHolds (c.members entry) (c.entryWord entry) := by
  have hlists := h.lists he
  have hsubset : ∀ i, c.chip.numPorts.toNat ≤ i →
      (c.untagMask &&& entry.members).getLsbD i = false := fun i hi => by
    rw [BitVec.getLsbD_and, h.members entry he i hi, Bool.and_false]
  unfold EntryHolds Config.entryWord
  cases hfamily : c.chip.family with
  | fastEthernet =>
    have hports : c.chip.numPorts.toNat = 6 := by
      rw [Chip.numPorts, hfamily]
      rfl
    by_cases hz : entry.members = 0
    · have hempty : c.members entry = [] := by
        refine List.eq_nil_iff_forall_not_mem.mpr fun m hm => ?_
        have hbit := (hlists m.port.toNat).1.mpr ⟨m, hm, rfl⟩
        rw [hz] at hbit
        cases BitVec.getLsbD_zero.symm.trans hbit
      have hnone : c.untagMask &&& 0 = 0 := BitVec.and_zero
      rw [hz, hnone] at hlists
      have hdecode : FastEntry.decode 0 = ⟨0, 0, 0, false⟩ := by decide
      rw [FastEthernet.entryWord, if_pos hz]
      refine ⟨?_, fun hne => absurd hempty hne, fun _ => rfl⟩
      show Lists (FastEntry.decode 0).members (FastEntry.decode 0).untagged _
      rw [hdecode]
      exact hlists
    · have hne : c.members entry ≠ [] := by
        intro hempty
        refine hz (BitVec.eq_of_getLsbD_eq fun i _ => ?_)
        have hzero : BitVec.getLsbD (0 : PortMask) i = false := BitVec.getLsbD_zero
        rw [hzero, ← Bool.not_eq_true, (hlists i).1, hempty]
        rintro ⟨m, hm, -⟩
        cases hm
      rw [FastEthernet.entryWord, if_neg hz, FastEntry.decode_encode,
        PortMask.and_eq_self FastEntry.getLsbD_ports (hports ▸ h.members entry he),
        PortMask.and_eq_self FastEntry.getLsbD_ports (hports ▸ hsubset)]
      exact ⟨hlists, fun _ => ⟨rfl, h.vidHigh_eq⟩, fun hempty => absurd hempty hne⟩
  | gigabit =>
    have hports : c.chip.numPorts.toNat = 9 := by
      rw [Chip.numPorts, hfamily]
      rfl
    rw [GigabitEntry.decode_encode,
      PortMask.and_eq_self GigabitEntry.getLsbD_ports (hports ▸ h.members entry he),
      PortMask.and_eq_self GigabitEntry.getLsbD_ports (hports ▸ hsubset)]
    exact hlists

/-- The write to the default tag of a port, if there is one, is of that port's tag. -/
theorem WellFormed.tag_writes {tag : PortConfig → UInt16} {port : UInt8} (hport : port < c.chip.numPorts)
    {w : RegisterWrite}
    (hw : w ∈ (tagPuts c.ports tag).map Put.taken) (hl : w.location = Layout.defaultTag port) :
    (c.port port).tagged = false ∧ w.value = (tag (c.port port)).toBitVec.setWidth 64 := by
  obtain ⟨i, p, hi, htag, rfl⟩ := mem_tagPuts.mp hw
  obtain ⟨hlen, hplace⟩ := h.port_place hi
  have hports := c.chip.numPorts_le
  have hlt := UInt8.lt_iff_toNat_lt.mp hport
  have hsame : UInt8.ofNat i = port := Layout.defaultTag_injective (by omega) (by omega) hl
  have hp : c.port port = p := by
    rw [Config.port, ← hsame, hplace, hi]
    rfl
  rw [hp]
  exact ⟨htag, rfl⟩

theorem WellFormed.tag_written {tag : PortConfig → UInt16} {port : UInt8} (hport : port < c.chip.numPorts)
    (huntagged : (c.port port).tagged = false) :
    ⟨Layout.defaultTag port, (tag (c.port port)).toBitVec.setWidth 64⟩ ∈ (tagPuts c.ports tag).map Put.taken :=
  mem_tagPuts.mpr ⟨port.toNat, c.port port, h.port_mem hport, huntagged, by rw [UInt8.ofNat_toNat]⟩

theorem WellFormed.toNat_tag {port : UInt8} (hport : port < c.chip.numPorts) :
    (((c.port port).pvid + c.vlanBase).toBitVec.setWidth 64).toNat =
      (c.port port).pvid.toNat + c.vlanBase.toNat := by
  have hbase : c.vlanBase.toNat ≤ 4095 := UInt16.le_iff_toNat_le.mp h.base_le
  have hpvid := UInt16.le_iff_toNat_le.mp (h.pvid _ (List.mem_of_getElem? (h.port_mem hport)))
  have hmax : c.chip.maxVid.toNat ≤ 4095 := by cases c.chip <;> decide
  rw [BitVec.toNat_setWidth_of_le (by decide)]
  show ((c.port port).pvid.toNat + c.vlanBase.toNat) % 65536 = _
  exact Nat.mod_eq_of_lt (by omega)

theorem WellFormed.tagRegister_mem {tag : PortConfig → UInt16} {w : RegisterWrite}
    (hw : w ∈ (tagPuts c.ports tag).map Put.taken) : w.location ∈ c.chip.tagRegisters := by
  obtain ⟨i, p, hi, -, rfl⟩ := mem_tagPuts.mp hw
  obtain ⟨hlen, hplace⟩ := h.port_place hi
  refine List.mem_map_of_mem (mem_portsBelow.mpr (UInt8.lt_iff_toNat_lt.mpr ?_))
  rwa [hplace]

omit h in
theorem mem_drop_zipIdx {α : Type} {xs : List α} {k i : Nat} {x : α} :
    (x, i) ∈ xs.zipIdx.drop k ↔ k ≤ i ∧ xs[i]? = some x := by
  rw [List.mem_iff_getElem?]
  simp only [List.getElem?_drop, List.getElem?_zipIdx, Option.map_eq_some_iff, Prod.mk.injEq, Nat.zero_add]
  constructor
  · rintro ⟨j, x', hx, rfl, rfl⟩
    exact ⟨Nat.le_add_right _ _, hx⟩
  · rintro ⟨hk, hx⟩
    exact ⟨i - k, x, by rwa [Nat.add_sub_cancel' hk], rfl, Nat.add_sub_cancel' hk⟩

/-- The entries that are programmed are those from the first one on, each with its word. -/
theorem WellFormed.mem_entries {e : UInt16 × BitVec 32} :
    e ∈ c.entries ↔ c.chip.firstEntry ≤ e.1.toNat ∧ e.1 < c.chip.numVlans ∧ e.2 = c.entryWord (c.vlan e.1) := by
  have hlen : c.vlans.length = 16 := h.vlans
  rw [entries, List.mem_map]
  constructor
  · rintro ⟨⟨entry, i⟩, hi, rfl⟩
    obtain ⟨hfirst, hentry⟩ := mem_drop_zipIdx.mp hi
    obtain ⟨hlt, hplace⟩ := h.vlan_place hentry
    have hvlan : c.vlan (UInt16.ofNat i) = entry := by
      rw [vlan, hplace, hentry]
      rfl
    exact ⟨hplace.symm ▸ hfirst, UInt16.lt_iff_toNat_lt.mpr (hplace.symm ▸ hlt),
      congrArg c.entryWord hvlan.symm⟩
  · rintro ⟨hfirst, hlt, hword⟩
    have hlt : e.1.toNat < c.vlans.length := hlen.symm ▸ UInt16.lt_iff_toNat_lt.mp hlt
    refine ⟨(c.vlans[e.1.toNat], e.1.toNat), mem_drop_zipIdx.mpr ⟨hfirst, List.getElem?_eq_getElem hlt⟩, ?_⟩
    have hvlan : c.vlan e.1 = c.vlans[e.1.toNat] := by
      rw [vlan, List.getElem?_eq_getElem hlt]
      rfl
    exact Prod.ext UInt16.ofNat_toNat (by rw [hword, hvlan])

/-- The default tags after they were given to the ports that send untagged. -/
theorem WellFormed.registers_tags {port : UInt8} (hport : port < c.chip.numPorts) {s : Store}
    (hs : s.Healthy c.chip) (tag : PortConfig → UInt16) :
    ((c.port port).tagged = false →
      (s.writeAll ((tagPuts c.ports tag).map Put.taken)).registers (Layout.defaultTag port) =
        (tag (c.port port)).toBitVec.setWidth 64) ∧
      ((c.port port).tagged = true →
        (s.writeAll ((tagPuts c.ports tag).map Put.taken)).registers (Layout.defaultTag port) =
        s.registers (Layout.defaultTag port)) := by
  have hplain := c.chip.tagRegisters_disjoint _ (Chip.defaultTag_mem hport)
  constructor
  · intro huntagged
    exact Store.registers_writeAll (hs.ne_command hplain.2.2) hs.forwards
      (fun w hw hl => (h.tag_writes hport hw hl).2)
      (Or.inl ⟨_, h.tag_written hport huntagged, rfl⟩)
  · intro htagged
    refine Store.registers_writeAll_of_ne s fun w hw heq => ?_
    have huntagged := (h.tag_writes hport hw heq.symm).1
    rw [htagged] at huntagged
    cases huntagged

/-- The VLAN table after its entries were programmed. -/
theorem WellFormed.table_entries {s : Store} (hs : s.Healthy c.chip) (index : UInt16) :
    (c.chip.firstEntry ≤ index.toNat → index < c.chip.numVlans →
      (s.writeAll ((c.entries.flatMap c.chip.entryPuts).map Put.taken)).table index =
        some (c.entryWord (c.vlan index))) ∧
    (index.toNat < c.chip.firstEntry ∨ c.chip.numVlans ≤ index →
      (s.writeAll ((c.entries.flatMap c.chip.entryPuts).map Put.taken)).table index = s.table index) := by
  have hlow : ∀ e ∈ c.entries, e.1.toNat < 256 := fun e he => by
    have hlt : e.1.toNat < 16 := UInt16.lt_iff_toNat_lt.mp (h.mem_entries.mp he).2.1
    omega
  constructor
  · intro hfirst hlt
    refine Store.table_entries hs.chip hs.forwards hlow ?_
      (Or.inl ⟨(index, c.entryWord (c.vlan index)), h.mem_entries.mpr ⟨hfirst, hlt, rfl⟩, rfl⟩)
    rintro e he rfl
    exact (h.mem_entries.mp he).2.2
  · intro hout
    refine Store.table_entries_of_ne hs.chip hs.forwards hlow ?_
    rintro e he rfl
    obtain ⟨hfirst, hlt, -⟩ := h.mem_entries.mp he
    rcases hout with hout | hout
    · omega
    · exact absurd (UInt16.lt_iff_toNat_lt.mp hlt) (Nat.not_lt.mpr (UInt16.le_iff_toNat_le.mp hout))

omit h in
theorem taken_puts_of_enabled (hon : c.vlanEnabled = true) (mode : BitVec 8) :
    (c.puts mode).map Put.taken = modeWrites true mode ++
      ((tagPuts c.ports fun p => p.pvid + c.vlanBase).map Put.taken ++
        (c.entries.flatMap c.chip.entryPuts).map Put.taken) := by
  rw [puts, hon, if_pos rfl, List.map_append, taken_mode, List.map_append]

theorem WellFormed.enforced (hon : c.vlanEnabled = true) {s : Store} (hs : s.Healthy c.chip) :
    c.Enforced s (s.writeAll (c.writes s)) := by
  rw [writes, taken_puts_of_enabled hon, Store.writeAll_append, Store.writeAll_append]
  have htag : ∀ w ∈ (tagPuts c.ports fun p => p.pvid + c.vlanBase).map Put.taken,
      w.location ∈ c.chip.tagRegisters :=
    fun w hw => h.tagRegister_mem hw
  have hs₁ := hs.writeAll (modeWrites true ((s.registers Layout.switchMode).setWidth 8))
  obtain ⟨hmodes₁, htable₁, hkeep₁⟩ := modeSet_modeWrites hs true
  generalize s.writeAll (modeWrites true ((s.registers Layout.switchMode).setWidth 8)) = s₁ at *
  have hs₂ := hs₁.writeAll ((tagPuts c.ports fun p => p.pvid + c.vlanBase).map Put.taken)
  have hmodes₂ := hmodes₁.writeAll fun w hw => (c.chip.tagRegisters_disjoint _ (htag w hw)).1
  have htable₂ := hs₁.table_writeAll fun w hw => (c.chip.tagRegisters_disjoint _ (htag w hw)).2.2
  have hkeep₂ : ∀ l, l ∉ c.chip.tagRegisters → _ := fun l hl => Store.registers_writeAll_outside s₁ htag hl
  have htags₂ : ∀ port < c.chip.numPorts, _ :=
    fun port hport => h.registers_tags hport hs₁ fun p => p.pvid + c.vlanBase
  generalize s₁.writeAll ((tagPuts c.ports fun p => p.pvid + c.vlanBase).map Put.taken) = s₂ at *
  have htable₃ := h.table_entries hs₂
  have hkeep₃ : ∀ l, l ∉ c.chip.tableRegisters → _ := fun l hl =>
    Store.registers_writeAll_outside s₂ (fun w hw => mem_entryPuts c.entries hw) hl
  exact {
    entries index hfirst hlt := by
      exact ⟨c.members (c.vlan index), c.entryWord (c.vlan index), vlanPorts_of_lt hlt,
        (htable₃ index).1 hfirst hlt, h.entryHolds (List.mem_of_getElem? (h.vlan_mem hlt))⟩
    otherEntries index hout := by rw [(htable₃ index).2 hout, htable₂, htable₁]
    tags port hport huntagged := by
      rw [hkeep₃ _ (c.chip.tagRegisters_disjoint _ (Chip.defaultTag_mem hport)).2.2,
        (htags₂ port hport).1 huntagged, h.toNat_tag hport]
    taggedPorts port hport htagged := by
      have hplain := c.chip.tagRegisters_disjoint _ (Chip.defaultTag_mem hport)
      rw [hkeep₃ _ hplain.2.2, (htags₂ port hport).2 htagged, hkeep₁ _ hplain.1]
    modes := hmodes₂.writeAll fun w hw hm =>
      (c.chip.modeRegisters_disjoint _ hm).2.2 (mem_entryPuts c.entries hw)
    others l hmode htag htable := by rw [hkeep₃ l htable, hkeep₂ l htag, hkeep₁ l hmode] }

end

/-! ### Without VLANs -/

/-- The store `t` has no VLANs: on the fast Ethernet chips entry 1 spans all ports, every other entry is
    empty, no port has a tag and the ports with a PHY and the CPU port are uncontrolled. It is like `s` in
    everything else but the registers through which the table is programmed. -/
structure Flat (chip : Chip) (s t : Store) : Prop where
  entries : ∀ index : UInt16, chip.firstEntry ≤ index.toNat → index < chip.numVlans →
    t.table index = some (if chip.family = .fastEthernet ∧ index = 1 then 0x00100fff else 0)
  otherEntries : ∀ index : UInt16, index.toNat < chip.firstEntry ∨ chip.numVlans ≤ index →
    t.table index = s.table index
  tags : ∀ port < chip.numPorts, t.registers (Layout.defaultTag port) = 0
  portControl : ∀ port ≤ chip.lastPhyPort, t.registers (Layout.portControl port) = 0
  cpuControl : t.registers Layout.cpuControl = 0
  modes : ModeSet false s t
  middlePorts : ∀ port, chip.lastPhyPort < port → port < chip.cpuPort →
    t.registers (Layout.portControl port) = s.registers (Layout.portControl port)
  others : ∀ l, l ∉ Layout.modeRegisters → l ∉ chip.tagRegisters → l ∉ chip.controlRegisters →
    l ∉ chip.tableRegisters →
    t.registers l = s.registers l

section
variable {s : Store} {chip : Chip}

theorem mem_clearedEntries (chip : Chip) :
    (∀ e ∈ chip.clearedEntries, chip.firstEntry ≤ e.1.toNat ∧ e.1.toNat < chip.numVlans.toNat ∧ e.2 = 0) ∧
      ∀ i < chip.numVlans.toNat, chip.firstEntry ≤ i → (UInt16.ofNat i, 0) ∈ chip.clearedEntries := by
  have hsize : chip.numVlans.toNat < UInt16.size := UInt16.toNat_lt_size _
  constructor
  · intro e he
    obtain ⟨i, hi, rfl⟩ := List.mem_map.mp he
    obtain ⟨j, hj, rfl⟩ := List.mem_drop_iff_getElem.mp hi
    rw [List.length_range] at hj
    have hindex : (UInt16.ofNat (chip.firstEntry + j)).toNat = chip.firstEntry + j :=
      UInt16.toNat_ofNat_of_lt' (by omega)
    rw [List.getElem_range, hindex]
    exact ⟨Nat.le_add_right _ _, Nat.add_comm j _ ▸ hj, rfl⟩
  · intro i hi hfirst
    refine List.mem_map.mpr ⟨i, List.mem_drop_iff_getElem.mpr ⟨i - chip.firstEntry, ?_, ?_⟩, rfl⟩
    · rw [List.length_range]
      omega
    · rw [List.getElem_range]
      omega

theorem table_cleared (hs : s.Healthy chip) (index : UInt16) :
    (chip.firstEntry ≤ index.toNat → index < chip.numVlans →
      (s.writeAll ((chip.clearedEntries.flatMap chip.entryPuts).map Put.taken)).table index = some 0) ∧
    (index.toNat < chip.firstEntry ∨ chip.numVlans ≤ index →
      (s.writeAll ((chip.clearedEntries.flatMap chip.entryPuts).map Put.taken)).table index =
        s.table index) := by
  obtain ⟨hmem, hall⟩ := mem_clearedEntries chip
  have hlow : ∀ e ∈ chip.clearedEntries, e.1.toNat < 256 := by
    intro e he
    have hlt : e.1.toNat < 16 := (hmem e he).2.1
    omega
  constructor
  · intro hfirst hlt
    have hin := hall index.toNat (UInt16.lt_iff_toNat_lt.mp hlt) hfirst
    rw [UInt16.ofNat_toNat] at hin
    exact Store.table_entries hs.chip hs.forwards hlow (fun e he _ => (hmem e he).2.2) (Or.inl ⟨_, hin, rfl⟩)
  · intro hout
    refine Store.table_entries_of_ne hs.chip hs.forwards hlow ?_
    rintro e he rfl
    obtain ⟨hfirst, hlt, -⟩ := hmem e he
    rcases hout with hout | hout
    · omega
    · exact absurd hlt (Nat.not_lt.mpr (UInt16.le_iff_toNat_le.mp hout))

theorem table_flat (hs : s.Healthy chip) (index : UInt16) :
    (chip.firstEntry ≤ index.toNat → index < chip.numVlans →
      (s.writeAll ((chip.flatEntries.flatMap chip.entryPuts).map Put.taken)).table index =
        some (if chip.family = .fastEthernet ∧ index = 1 then 0x00100fff else 0)) ∧
    (index.toNat < chip.firstEntry ∨ chip.numVlans ≤ index →
      (s.writeAll ((chip.flatEntries.flatMap chip.entryPuts).map Put.taken)).table index = s.table index) := by
  obtain ⟨hin, hout⟩ := table_cleared hs index
  cases hfamily : chip.family with
  | fastEthernet =>
    have hcleared := hs.writeAll ((chip.clearedEntries.flatMap chip.entryPuts).map Put.taken)
    have hfirst : chip.firstEntry = 0 := by rw [Chip.firstEntry, hfamily]
    have hflat : chip.flatEntries = chip.clearedEntries ++ [(1, 0x00100fff)] := by
      rw [Chip.flatEntries, hfamily]
    rw [hflat, List.flatMap_append, List.flatMap_singleton, List.map_append, Store.writeAll_append,
      Store.table_entryPuts hcleared.chip hcleared.forwards (by decide)]
    -- Entry 1 is cleared with the others and then written again.
    by_cases hone : index = 1
    · have hprogrammed : ¬(index.toNat < chip.firstEntry ∨ chip.numVlans ≤ index) := by
        rw [hone, hfirst]
        exact (by decide : ¬((1 : UInt16).toNat < 0 ∨ (16 : UInt16) ≤ 1))
      rw [if_pos ⟨rfl, hone⟩, hone]
      exact ⟨fun _ _ => Store.table_setEntry_self _ _ _, fun hother => absurd (hone ▸ hother) hprogrammed⟩
    · rw [if_neg fun h => hone h.2, Store.table_setEntry_of_ne _ _ hone]
      exact ⟨hin, hout⟩
  | gigabit =>
    have hflat : chip.flatEntries = chip.clearedEntries := by rw [Chip.flatEntries, hfamily]
    rw [hflat, if_neg fun h => absurd h.1 (by decide)]
    exact ⟨hin, hout⟩

theorem taken_puts_of_disabled {c : Config} (hoff : c.vlanEnabled = false) (mode : BitVec 8) :
    (c.puts mode).map Put.taken = modeWrites false mode ++
      ((c.chip.flatEntries.flatMap c.chip.entryPuts).map Put.taken ++
        c.chip.controlRegisters.map (RegisterWrite.mk · 0) ++
        c.chip.tagRegisters.map (RegisterWrite.mk · 0)) := by
  rw [puts, hoff, if_neg Bool.false_ne_true, List.map_append, taken_mode, List.map_append,
    List.map_append, taken_clear, taken_clearTags]

theorem flat_writeAll {c : Config} (hoff : c.vlanEnabled = false) (hs : s.Healthy c.chip) :
    Flat c.chip s (s.writeAll (c.writes s)) := by
  rw [writes, taken_puts_of_disabled hoff, Store.writeAll_append, Store.writeAll_append, Store.writeAll_append]
  have hzero : ∀ {ls : List Location}, ∀ w ∈ ls.map (RegisterWrite.mk · 0), w.location ∈ ls :=
    fun _ hw => Store.location_zeros hw
  have hs₁ := hs.writeAll (modeWrites false ((s.registers Layout.switchMode).setWidth 8))
  obtain ⟨hmodes₁, htable₁, hkeep₁⟩ := modeSet_modeWrites hs false
  generalize s.writeAll (modeWrites false ((s.registers Layout.switchMode).setWidth 8)) = s₁ at *
  have hs₂ := hs₁.writeAll ((c.chip.flatEntries.flatMap c.chip.entryPuts).map Put.taken)
  have hmodes₂ := hmodes₁.writeAll fun w hw hm => (c.chip.modeRegisters_disjoint _ hm).2.2
    (mem_entryPuts c.chip.flatEntries hw)
  have htable₂ := table_flat hs₁
  have hkeep₂ : ∀ l, l ∉ c.chip.tableRegisters → _ := fun l hl =>
    Store.registers_writeAll_outside s₁ (fun w hw => mem_entryPuts c.chip.flatEntries hw) hl
  generalize s₁.writeAll ((c.chip.flatEntries.flatMap c.chip.entryPuts).map Put.taken) = s₂ at *
  have hs₃ := hs₂.writeAll (c.chip.controlRegisters.map (RegisterWrite.mk · 0))
  have hmodes₃ := hmodes₂.writeAll fun w hw => (c.chip.controlRegisters_disjoint _ (hzero w hw)).1
  have htable₃ := hs₂.table_writeAll fun w hw => (c.chip.controlRegisters_disjoint _ (hzero w hw)).2.2
  have hzero₃ : ∀ l ∈ c.chip.controlRegisters, _ := fun l hl =>
    hs₂.registers_zeros hl (c.chip.controlRegisters_disjoint l hl).2.2
  have hkeep₃ : ∀ l, l ∉ c.chip.controlRegisters → _ := fun l hl => Store.registers_writeAll_outside s₂ hzero hl
  generalize s₂.writeAll (c.chip.controlRegisters.map (RegisterWrite.mk · 0)) = s₃ at *
  have htable₄ := hs₃.table_writeAll fun w hw => (c.chip.tagRegisters_disjoint _ (hzero w hw)).2.2
  have hkeep₄ : ∀ l, l ∉ c.chip.tagRegisters → _ := fun l hl => Store.registers_writeAll_outside s₃ hzero hl
  exact {
    entries index hfirst hlt := by rw [htable₄, htable₃, (htable₂ index).1 hfirst hlt]
    otherEntries index hout := by rw [htable₄, htable₃, (htable₂ index).2 hout, htable₁]
    tags port hport :=
      hs₃.registers_zeros (Chip.defaultTag_mem hport)
        (c.chip.tagRegisters_disjoint _ (Chip.defaultTag_mem hport)).2.2
    portControl port hport := by
      rw [hkeep₄ _ (c.chip.controlRegisters_disjoint _ (Chip.portControl_mem hport)).2.1,
        hzero₃ _ (Chip.portControl_mem hport)]
    cpuControl := by
      rw [hkeep₄ _ (c.chip.controlRegisters_disjoint _ c.chip.cpuControl_mem).2.1,
        hzero₃ _ c.chip.cpuControl_mem]
    modes := hmodes₃.writeAll fun w hw => (c.chip.tagRegisters_disjoint _ (hzero w hw)).1
    middlePorts port hlow hhigh := by
      obtain ⟨hmodes, htags, hcontrol, htable⟩ := c.chip.middlePort_disjoint hlow hhigh
      rw [hkeep₄ _ htags, hkeep₃ _ hcontrol, hkeep₂ _ htable, hkeep₁ _ hmodes]
    others l hmodes htags hcontrol htable := by
      rw [hkeep₄ l htags, hkeep₃ l hcontrol, hkeep₂ l htable, hkeep₁ l hmodes] }

end

end Config

/-! ### On the chip -/

theorem Chip.registers_plain (chip : Chip) :
    ∀ l ∈ Layout.modeRegisters ++ chip.tagRegisters ++ chip.controlRegisters ++ chip.tableRegisters,
      l.offset ∉ SpiFrames.reserved := by
  cases chip <;> decide

/-- Applying a configuration writes the mode registers first, and then none of them. -/
theorem Config.WellFormed.split_puts {c : Config} (h : c.WellFormed) (mode : BitVec 8) :
    ∃ rest, (c.puts mode).map Put.taken = modeWrites c.vlanEnabled mode ++ rest ∧
      ∀ w ∈ rest, w.location ∈ c.chip.tagRegisters ++ c.chip.controlRegisters ++ c.chip.tableRegisters := by
  cases hon : c.vlanEnabled with
  | true =>
    refine ⟨_, taken_puts_of_enabled hon mode, fun w hw => ?_⟩
    rcases List.mem_append.mp hw with hw | hw
    · exact List.mem_append_left _ (List.mem_append_left _ (h.tagRegister_mem hw))
    · exact List.mem_append_right _ (mem_entryPuts _ hw)
  | false =>
    refine ⟨_, taken_puts_of_disabled hon mode, fun w hw => ?_⟩
    rcases List.mem_append.mp hw with hw | hw
    · rcases List.mem_append.mp hw with hw | hw
      · exact List.mem_append_right _ (mem_entryPuts _ hw)
      · exact List.mem_append_left _ (List.mem_append_right _ (Store.location_zeros hw))
    · exact List.mem_append_left _ (List.mem_append_left _ (Store.location_zeros hw))

theorem Config.WellFormed.mem_puts {c : Config} (h : c.WellFormed) {mode : BitVec 8} {w : RegisterWrite}
    (hw : w ∈ (c.puts mode).map Put.taken) :
    w ∈ modeWrites c.vlanEnabled mode ∨
      w.location ∈ c.chip.tagRegisters ++ c.chip.controlRegisters ++ c.chip.tableRegisters := by
  obtain ⟨rest, hputs, hrest⟩ := h.split_puts mode
  rw [hputs] at hw
  exact (List.mem_append.mp hw).imp_right (hrest w)

/-- So it sets the modes, also on a chip that was taken for another. -/
theorem Config.WellFormed.modeSet_puts {c : Config} (h : c.WellFormed) {s : Store} (hs : s.forwardStuck = false) :
    ModeSet c.vlanEnabled s (s.writeAll (c.writes s)) := by
  obtain ⟨rest, hputs, hrest⟩ := h.split_puts ((s.registers Layout.switchMode).setWidth 8)
  rw [Config.writes, hputs, Store.writeAll_append]
  refine (modeSet_of_forwards hs _).writeAll fun w hw hmode => ?_
  obtain ⟨htag, hcontrol, htable⟩ := c.chip.modeRegisters_disjoint _ hmode
  simp only [List.mem_append] at hrest
  rcases hrest w hw with (hl | hl) | hl
  · exact htag hl
  · exact hcontrol hl
  · exact htable hl

theorem Config.WellFormed.location_puts {c : Config} (h : c.WellFormed) {mode : BitVec 8} {w : RegisterWrite}
    (hw : w ∈ (c.puts mode).map Put.taken) :
    w.location ∈ Layout.modeRegisters ++ c.chip.tagRegisters ++ c.chip.controlRegisters ++
      c.chip.tableRegisters := by
  rw [List.append_assoc Layout.modeRegisters, List.append_assoc Layout.modeRegisters]
  exact List.mem_append.mpr ((h.mem_puts hw).imp_left location_modeWrites)

namespace Switch
variable {c : Config}

/-- Applying a configuration uses no register that SPI keeps for itself. -/
theorem uses_applyConfig (h : c.WellFormed) : Script.Uses Engine.Plain (applyConfig c) := by
  rw [applyConfig_eq h]
  refine (Script.uses_read8 (by unfold Engine.Plain; decide)).bind fun mode => Script.uses_emit fun p hp => ?_
  exact c.chip.registers_plain _ (h.location_puts (List.mem_map_of_mem hp))

theorem does_applyConfig (h : c.WellFormed) (s : Store) :
    Store.Does (applyConfig c) s () (c.writes s) := by
  rw [applyConfig_eq h]
  exact (Store.does_read8 (by decide)).bind (Store.does_emit _)

section
variable {e : Engine} {s : Simulation}

/-- Applying a configuration does on the chip what its writes do on the store. -/
theorem device_applyConfig_store (hc : c.WellFormed) (he : e.Attached) (hs : s.Reachable) (hfree : s.FaultFree)
    (n : Nat) :
    (layer.device e.device .applyConfig (c, n, s)).1 = .ok () ∧
      (layer.device e.device .applyConfig (c, n, s)).2.1 = c ∧
      (layer.device e.device .applyConfig (c, n, s)).2.2.2.store =
        s.store.writeAll (c.writes s.store) := by
  obtain ⟨hanswer, hstore⟩ :=
    Engine.runOn_does he hs hfree (uses_applyConfig hc) (does_applyConfig hc s.store) n
  rw [device_applyConfig]
  exact ⟨hanswer, rfl, hstore⟩

/-- With VLANs on, applying the configuration makes the chip enforce exactly what it says, whatever the chip
    held before and whichever engine reaches it. -/
theorem applyConfig_enforces (hc : c.Reachable) (hon : c.vlanEnabled = true) (he : e.Attached)
    (hs : s.Reachable) (hchip : s.store.chip = some c.chip) (hfree : s.FaultFree) (n : Nat) :
    (layer.device e.device .applyConfig (c, n, s)).1 = .ok () ∧
      (layer.device e.device .applyConfig (c, n, s)).2.1 = c ∧
      c.Enforced s.store (layer.device e.device .applyConfig (c, n, s)).2.2.2.store := by
  obtain ⟨hok, hsame, hstore⟩ := device_applyConfig_store hc.wellFormed he hs hfree n
  rw [hstore]
  exact ⟨hok, hsame, hc.wellFormed.enforced hon ⟨hchip, hfree.forwards⟩⟩

/-- Two ports of a BCM5325E in one VLAN, the second of them tagged. -/
def pair : Config :=
  Operation.after (.setVlanPorts 2 [⟨0, false⟩, ⟨1, true⟩])
    (Operation.after (.setVlanEnabled true) (.initial ⟨.bcm5325E, 0⟩))

theorem pair_reachable : pair.Reachable := ((Config.Reachable.initial _).after _).after _

theorem applyConfig_enforces_pair :
    pair.vlanEnabled = true ∧
    (layer.device Engine.spi.device .applyConfig (pair, 0, .new (.ofChip .bcm5325E))).1 = .ok () ∧
      pair.Enforced (Simulation.new (.ofChip .bcm5325E)).store
        (layer.device Engine.spi.device .applyConfig (pair, 0, .new (.ofChip .bcm5325E))).2.2.2.store := by
  have hon : pair.vlanEnabled = true := rfl
  obtain ⟨hok, -, henforced⟩ := applyConfig_enforces (e := .spi) pair_reachable hon trivial
    (Simulation.reachable_new (.ofChip .bcm5325E)) rfl ⟨rfl, rfl, rfl⟩ 0
  exact ⟨hon, hok, henforced⟩

/-- With VLANs off, applying the configuration flattens the chip, whatever the configuration and the chip
    still held. -/
theorem applyConfig_flattens (hc : c.Reachable) (hoff : c.vlanEnabled = false) (he : e.Attached)
    (hs : s.Reachable) (hchip : s.store.chip = some c.chip) (hfree : s.FaultFree) (n : Nat) :
    (layer.device e.device .applyConfig (c, n, s)).1 = .ok () ∧
      (layer.device e.device .applyConfig (c, n, s)).2.1 = c ∧
      Config.Flat c.chip s.store (layer.device e.device .applyConfig (c, n, s)).2.2.2.store := by
  obtain ⟨hok, hsame, hstore⟩ := device_applyConfig_store hc.wellFormed he hs hfree n
  rw [hstore]
  exact ⟨hok, hsame, Config.flat_writeAll hoff ⟨hchip, hfree.forwards⟩⟩

theorem applyConfig_flattens_pair :
    (pair.setVlanEnabled false).vlanEnabled = false ∧
    (layer.device (Engine.mdio {}).device .applyConfig
      (pair.setVlanEnabled false, 0, .new (.ofChip .bcm5325E))).1 = .ok () ∧
      Config.Flat .bcm5325E (Simulation.new (.ofChip .bcm5325E)).store
        (layer.device (Engine.mdio {}).device .applyConfig
          (pair.setVlanEnabled false, 0, .new (.ofChip .bcm5325E))).2.2.2.store := by
  have hoff : (pair.setVlanEnabled false).vlanEnabled = false := rfl
  have hreachable : (pair.setVlanEnabled false).Reachable := pair_reachable.after (.setVlanEnabled false)
  obtain ⟨hok, -, hflat⟩ := applyConfig_flattens (e := .mdio {}) hreachable hoff rfl
    (Simulation.reachable_new (.ofChip .bcm5325E)) rfl ⟨rfl, rfl, rfl⟩ 0
  exact ⟨hoff, hok, hflat⟩

end

end Switch

end EtherSwitch
