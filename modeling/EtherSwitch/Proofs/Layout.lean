import EtherSwitch.Chip

/-! The registers that the operations of a switch concern, in groups without a register in common. -/

namespace EtherSwitch

/-- A narrow value in a register is read back as it was. -/
theorem narrow_widen {n : Nat} (h : n ≤ 64) (x : BitVec n) : (x.setWidth 64).setWidth n = x := by
  rw [BitVec.setWidth_setWidth_of_le _ h, BitVec.setWidth_eq]

theorem and_ne_zero_of_getLsbD {w : Nat} {x mask : BitVec w} (i : Nat) (hx : x.getLsbD i = true)
    (hmask : mask.getLsbD i = true) : x &&& mask ≠ 0 := by
  intro h
  have hbit : (x &&& mask).getLsbD i = true := by rw [BitVec.getLsbD_and, hx, hmask, Bool.and_self]
  rw [h] at hbit
  cases BitVec.getLsbD_zero.symm.trans hbit

/-! ### Ports -/

theorem mem_portsBelow {n port : UInt8} : port ∈ portsBelow n ↔ port < n := by
  rw [portsBelow, List.mem_map, UInt8.lt_iff_toNat_lt]
  constructor
  · rintro ⟨i, hi, rfl⟩
    have hlt := List.mem_range.mp hi
    have := n.toNat_lt
    rwa [UInt8.toNat_ofNat_of_lt' (show i < 256 by omega)]
  · intro h
    exact ⟨port.toNat, List.mem_range.mpr h, UInt8.ofNat_toNat⟩

/-- Ports are listed in ascending order. -/
theorem portsBelow_sorted (n : UInt8) : (portsBelow n).Pairwise (· < ·) := by
  rw [portsBelow, List.pairwise_map]
  refine List.pairwise_lt_range.imp_of_mem fun {i j} hi hj hlt => ?_
  have hbound := List.mem_range.mp hj
  have := n.toNat_lt
  rwa [UInt8.lt_iff_toNat_lt, UInt8.toNat_ofNat_of_lt' (show i < 256 by omega),
    UInt8.toNat_ofNat_of_lt' (show j < 256 by omega)]

/-- Ports of a chip have tags of their own. -/
theorem Layout.defaultTag_injective {p q : UInt8} (hp : p.toNat < 9) (hq : q.toNat < 9)
    (h : defaultTag p = defaultTag q) :
    p = q := by
  have hoffset : ∀ x : UInt8, (defaultTag x).offset.toNat = (16 + 2 * x.toNat % 256) % 256 := fun x => by
    rw [defaultTag, UInt8.toNat_add, UInt8.toNat_mul]
    rfl
  have heq := congrArg (fun l : Location => l.offset.toNat) h
  simp only [hoffset] at heq
  apply UInt8.toNat_inj.mp
  omega

/-! ### Groups of registers -/

/-- The registers that tell what the chip does with VLANs. -/
def Layout.modeRegisters : List Location := [vlanControl0, vlanControl1, vlanControl4, vlanControl5, switchMode]

/-- The registers that sum up the links of all ports. -/
def Layout.statusRegisters : List Location := [linkStatus, speedStatus, duplexFast, duplexGigabit]

namespace Chip

theorem numPorts_le (chip : Chip) : chip.numPorts.toNat ≤ 9 := by cases chip <;> decide

/-- A port with a PHY has a bit in the summaries of the ports. -/
theorem lt_of_le_lastPhyPort {chip : Chip} {port : UInt8} (h : port ≤ chip.lastPhyPort) : port.toNat < 16 := by
  have hlast : chip.lastPhyPort.toNat < 16 := by cases chip <;> decide
  exact Nat.lt_of_le_of_lt (UInt8.le_iff_toNat_le.mp h) hlast

theorem mem_phyPorts {chip : Chip} {port : UInt8} : port ∈ portsBelow (chip.lastPhyPort + 1) ↔
    port ≤ chip.lastPhyPort := by
  have hnext : (chip.lastPhyPort + 1).toNat = chip.lastPhyPort.toNat + 1 := by cases chip <;> rfl
  rw [mem_portsBelow, UInt8.lt_iff_toNat_lt, UInt8.le_iff_toNat_le, hnext]
  exact Nat.lt_succ_iff

/-- The register whose writes start table operations. -/
def tableCommand (chip : Chip) : Location :=
  match chip.family with
  | .fastEthernet => Layout.tableAccess
  | .gigabit => chip.tableWindow.access

/-- The registers through which the VLAN table is programmed. -/
def tableRegisters (chip : Chip) : List Location :=
  match chip.family with
  | .fastEthernet => [Layout.tableEntry, Layout.tableAccess]
  | .gigabit => [chip.tableWindow.index, chip.tableWindow.entry, chip.tableWindow.access]

def tagRegisters (chip : Chip) : List Location := (portsBelow chip.numPorts).map Layout.defaultTag

/-- The control registers of the ports with a PHY and of the CPU port. -/
def controlRegisters (chip : Chip) : List Location :=
  (portsBelow (chip.lastPhyPort + 1)).map Layout.portControl ++ [Layout.cpuControl]

/-- The registers that a switch with this chip may write. -/
def writtenRegisters (chip : Chip) : List Location :=
  Layout.modeRegisters ++ chip.tagRegisters ++ chip.controlRegisters ++ chip.tableRegisters ++
    [Layout.portOverride]

theorem tableCommand_mem (chip : Chip) : chip.tableCommand ∈ chip.tableRegisters := by cases chip <;> decide

theorem defaultTag_mem {chip : Chip} {port : UInt8} (h : port < chip.numPorts) :
    Layout.defaultTag port ∈ chip.tagRegisters :=
  List.mem_map_of_mem (mem_portsBelow.mpr h)

theorem portControl_mem {chip : Chip} {port : UInt8} (h : port ≤ chip.lastPhyPort) :
    Layout.portControl port ∈ chip.controlRegisters :=
  List.mem_append_left _ (List.mem_map_of_mem (mem_phyPorts.mpr h))

theorem cpuControl_mem (chip : Chip) : Layout.cpuControl ∈ chip.controlRegisters :=
  List.mem_append_right _ List.mem_cons_self

theorem modeRegisters_disjoint (chip : Chip) : ∀ l ∈ Layout.modeRegisters,
    l ∉ chip.tagRegisters ∧ l ∉ chip.controlRegisters ∧ l ∉ chip.tableRegisters := by
  cases chip <;> decide

theorem tagRegisters_disjoint (chip : Chip) : ∀ l ∈ chip.tagRegisters,
    l ∉ Layout.modeRegisters ∧ l ∉ chip.controlRegisters ∧ l ∉ chip.tableRegisters := by
  cases chip <;> decide

theorem controlRegisters_disjoint (chip : Chip) : ∀ l ∈ chip.controlRegisters,
    l ∉ Layout.modeRegisters ∧ l ∉ chip.tagRegisters ∧ l ∉ chip.tableRegisters := by
  cases chip <;> decide

/-- The control registers of the ports between those with a PHY and the CPU port are none of the others. -/
theorem middlePort_disjoint (chip : Chip) {port : UInt8} (hlow : chip.lastPhyPort < port)
    (hhigh : port < chip.cpuPort) :
    Layout.portControl port ∉ Layout.modeRegisters ∧ Layout.portControl port ∉ chip.tagRegisters ∧
      Layout.portControl port ∉ chip.controlRegisters ∧ Layout.portControl port ∉ chip.tableRegisters := by
  have hall : ∀ i < chip.cpuPort.toNat, chip.lastPhyPort.toNat < i →
      Layout.portControl (UInt8.ofNat i) ∉ Layout.modeRegisters ∧
        Layout.portControl (UInt8.ofNat i) ∉ chip.tagRegisters ∧
        Layout.portControl (UInt8.ofNat i) ∉ chip.controlRegisters ∧
        Layout.portControl (UInt8.ofNat i) ∉ chip.tableRegisters := by
    cases chip <;> decide
  have h := hall port.toNat (UInt8.lt_iff_toNat_lt.mp hhigh) (UInt8.lt_iff_toNat_lt.mp hlow)
  rwa [UInt8.ofNat_toNat] at h

/-- No chip takes a write to one of these for a table command. -/
theorem tableCommand_not_mem (chip : Chip) : chip.tableCommand ∉ Layout.modeRegisters := fun h =>
  (chip.modeRegisters_disjoint _ h).2.2 chip.tableCommand_mem

/-- No chip takes a write of any chip's reset for a table command. -/
theorem tableCommand_not_mem_reset (chip chip' : Chip) :
    chip'.tableCommand ∉ Layout.switchMode :: chip.controlRegisters ++ [Layout.portOverride] := by
  have hpage : ∀ l ∈ Layout.switchMode :: chip.controlRegisters ++ [Layout.portOverride], l.page = 0 := by
    cases chip <;> decide
  have hother : chip'.tableCommand.page ≠ 0 := by
    cases chip' <;> decide
  exact fun h => hother (hpage _ h)

/-- What tells the chip apart is written by no reset. -/
theorem idRegisters_disjoint (chip : Chip) : ∀ l ∈ [Layout.deviceId, Layout.vlanControl4, Layout.coreRevision],
    l ∉ Layout.switchMode :: chip.controlRegisters ++ [Layout.portOverride] := by
  cases chip <;> decide

/-- The registers that a reset writes are different ones, and none of the table's. -/
theorem resetRegisters_nodup (chip : Chip) :
    (Layout.switchMode :: chip.controlRegisters ++ [Layout.portOverride]).Nodup ∧
      ∀ l ∈ Layout.switchMode :: chip.controlRegisters ++ [Layout.portOverride], l ∉ chip.tableRegisters := by
  cases chip <;> decide

end Chip

end EtherSwitch
