import EtherSwitch.Proofs.Membership

/-! What the setters accept. Each one has an order in which it looks at its arguments, makes no access and, if
    it refuses one, leaves the configuration as it was (`Switch.setters_refuse_or_set`). -/

namespace EtherSwitch

namespace Config
variable {c : Config}

/-- Clearing the low four bits rounds down to a multiple of the table size. -/
theorem toNat_and_tableSize (base : UInt16) : (base &&& ~~~(16 - 1)).toNat = base.toNat / 16 * 16 := by
  have hmask : ∀ i < 16, Nat.testBit (~~~(16 - 1) : UInt16).toNat i = decide (4 ≤ i) := by decide
  rw [UInt16.toNat_and]
  refine Nat.eq_of_testBit_eq fun i => ?_
  have hround : (base.toNat / 2 ^ 4 * 2 ^ 4).testBit i = (decide (4 ≤ i) && base.toNat.testBit i) := by
    rw [Nat.testBit_mul_two_pow, Nat.testBit_div_two_pow]
    by_cases hi : 4 ≤ i
    · rw [Nat.sub_add_cancel hi]
    · simp [hi]
  rw [show base.toNat / 16 * 16 = base.toNat / 2 ^ 4 * 2 ^ 4 from rfl, hround, Nat.testBit_and]
  by_cases hi : i < 16
  · rw [hmask i hi, Bool.and_comm]
  · have hhigh : base.toNat.testBit i = false :=
      Nat.testBit_lt_two_pow
        (Nat.lt_of_lt_of_le base.toNat_lt (Nat.pow_le_pow_right (by decide) (Nat.not_lt.mp hi)))
    rw [hhigh, Bool.false_and, Bool.and_false]

theorem portPvid_of_lt {port : UInt8} (hport : port < c.chip.numPorts) :
    c.portPvid port = .ok (c.port port).pvid := by
  rw [portPvid, checkPort, if_pos hport]
  rfl

/-- The configuration with another own VLAN of a port. -/
def withPvid (c : Config) (port : UInt8) (vid : UInt16) : Config :=
  { c with ports := c.ports.modify port.toNat fun p => { p with pvid := vid } }

/-- What setting a port's own VLAN comes to: the port is looked at first. -/
theorem setPortPvid_eq (c : Config) (port : UInt8) (vid : UInt16) :
    c.setPortPvid port vid =
      if c.chip.numPorts ≤ port then .error (.invalidPort port c.chip.numPorts)
      else if c.chip.maxVid < vid then .error (.invalidVlanId vid c.chip.maxVid)
      else .ok (c.withPvid port vid) := by
  rw [setPortPvid, checkPort]
  by_cases hport : port < c.chip.numPorts
  · rw [if_pos hport, if_neg (UInt8.not_le.mpr hport)]
    by_cases hvid : c.chip.maxVid < vid
    · rw [if_pos hvid, if_pos hvid]
      rfl
    · rw [if_neg hvid, if_neg hvid]
      rfl
  · rw [if_neg hport, if_pos (UInt8.not_lt.mp hport)]
    rfl

theorem WellFormed.port_withPvid (h : c.WellFormed) {port : UInt8} (hport : port < c.chip.numPorts)
    (vid : UInt16) :
    (c.withPvid port vid).port port = { c.port port with pvid := vid } := by
  rw [Config.port, withPvid, List.getElem?_modify_eq, h.port_mem hport]
  rfl

end Config

namespace Switch
variable {c : Config}

/-- The operation is refused for a reason, without any access and with the configuration as it was. -/
def Refuses (c : Config) (op : Operation) (reason : Error) : Prop := Gives c op (.error reason) c

/-- What comes of setting the members of an entry: the index is looked at first, then whether the entry is
    reserved, then the ports in their order. What was set is read back. -/
def MembersOutcome (c : Config) (index : UInt16) (members : List VlanPort) : Prop :=
  if c.chip.numVlans ≤ index then Refuses c (.setVlanPorts index members)
    (.invalidVlanIndex index c.chip.numVlans)
  else if index = 0 ∧ c.chip.family = .gigabit
    then Refuses c (.setVlanPorts index members) (.reservedVlan index)
  else
    match members.find? fun m => c.chip.numPorts ≤ m.port with
    | some m => Refuses c (.setVlanPorts index members) (.invalidPort m.port c.chip.numPorts)
    | none => ∃ c' listed, Gives c (.setVlanPorts index members) (.ok ()) c' ∧
      Gives c' (.vlanPorts index) (.ok listed) c' ∧
        listed.Pairwise (·.port < ·.port) ∧ ∀ m, m ∈ listed ↔ m.LastIn members

/-- What comes of setting the own VLAN of a port: the port is looked at first. -/
def PvidOutcome (c : Config) (port : UInt8) (vid : UInt16) : Prop :=
  if c.chip.numPorts ≤ port then Refuses c (.setPortPvid port vid) (.invalidPort port c.chip.numPorts)
  else if c.chip.maxVid < vid then Refuses c (.setPortPvid port vid) (.invalidVlanId vid c.chip.maxVid)
  else ∃ c', Gives c (.setPortPvid port vid) (.ok ()) c' ∧ Gives c' (.portPvid port) (.ok vid) c'

/-- What comes of setting the base: it is rounded down to a multiple of the table size. -/
def BaseOutcome (c : Config) (base : UInt16) : Prop :=
  if c.chip.family = .gigabit ∧ base ≠ 0 then Refuses c (.setVlanBase base) (.unsupported .vlanBase)
  else if 0xfff < base then Refuses c (.setVlanBase base) (.invalidVlanId base 0xfff)
  else ∃ c', Gives c (.setVlanBase base) (.ok ()) c' ∧ Gives c' .config (.ok c') c' ∧
    c'.vlanBase.toNat = base.toNat / 16 * 16

theorem membersOutcome (h : c.WellFormed) (index : UInt16) (members : List VlanPort) :
    MembersOutcome c index members := by
  have hgives := gives_setVlanPorts c index members
  rw [Config.setVlanPorts_eq] at hgives
  rw [MembersOutcome]
  split
  case isTrue hindex => rwa [if_pos hindex] at hgives
  case isFalse hindex =>
    rw [if_neg hindex] at hgives
    split
    case isTrue hreserved => rwa [if_pos hreserved] at hgives
    case isFalse hreserved =>
      rw [if_neg hreserved] at hgives
      cases hfirst : members.find? fun m => c.chip.numPorts ≤ m.port with
      | some m => rwa [hfirst] at hgives
      | none =>
        rw [hfirst] at hgives
        have hports : ∀ m ∈ members, m.port < c.chip.numPorts := fun m hm =>
          UInt8.not_le.mp (by simpa using List.find?_eq_none.mp hfirst m hm)
        obtain ⟨listed, hread⟩ := gives_members h (UInt16.not_le.mp hindex) hreserved hports
        exact ⟨_, listed, hgives, hread⟩

theorem pvidOutcome (h : c.WellFormed) (port : UInt8) (vid : UInt16) : PvidOutcome c port vid := by
  have hgives := gives_setPortPvid c port vid
  rw [Config.setPortPvid_eq] at hgives
  rw [PvidOutcome]
  split
  case isTrue hport => rwa [if_pos hport] at hgives
  case isFalse hport =>
    rw [if_neg hport] at hgives
    split
    case isTrue hvid => rwa [if_pos hvid] at hgives
    case isFalse hvid =>
      rw [if_neg hvid] at hgives
      have hread := gives_portPvid (c.withPvid port vid) port
      rw [Config.portPvid_of_lt (c := c.withPvid port vid) (UInt8.not_le.mp hport),
        h.port_withPvid (UInt8.not_le.mp hport)] at hread
      exact ⟨_, hgives, hread⟩

theorem baseOutcome (c : Config) (base : UInt16) : BaseOutcome c base := by
  have hgives := gives_setVlanBase c base
  rw [Config.setVlanBase, show Config.vidLimit = 0xfff from rfl] at hgives
  rw [BaseOutcome]
  split
  case isTrue hfamily => rwa [if_pos hfamily] at hgives
  case isFalse hfamily =>
    rw [if_neg hfamily] at hgives
    split
    case isTrue hlimit => rwa [if_pos hlimit] at hgives
    case isFalse hlimit =>
      rw [if_neg hlimit] at hgives
      exact ⟨_, hgives, rfl, Config.toNat_and_tableSize base⟩

/-- The setters, over every device: each one makes no access and is refused for the first argument that is
    wrong, with the configuration as it was; otherwise what it has set can be read back. -/
theorem setters_refuse_or_set (hc : c.Reachable) :
    (∀ index members, MembersOutcome c index members) ∧ (∀ port vid, PvidOutcome c port vid) ∧
      ∀ base, BaseOutcome c base :=
  ⟨membersOutcome hc.wellFormed, pvidOutcome hc.wellFormed, baseOutcome c⟩

theorem setters_refuse_or_set_bcm5325E :
    (Config.initial ⟨.bcm5325E, 0⟩).Reachable ∧
      Refuses (.initial ⟨.bcm5325E, 0⟩) (.setVlanPorts 3 [⟨0, false⟩, ⟨7, false⟩, ⟨6, true⟩])
        (.invalidPort 7 6) ∧
      (∃ c', Gives (.initial ⟨.bcm5325E, 0⟩) (.setVlanPorts 0 []) (.ok ()) c') ∧
      Refuses (.initial ⟨.bcm5325E, 0⟩) (.setPortPvid 6 99) (.invalidPort 6 6) ∧
      (∃ c', Gives (.initial ⟨.bcm5325E, 0⟩) (.setPortPvid 5 15) (.ok ()) c' ∧
        Gives c' (.portPvid 5) (.ok 15) c') ∧
      Refuses (.initial ⟨.bcm5325E, 0⟩) (.setVlanBase 5000) (.invalidVlanId 5000 0xfff) ∧
      ∃ c', Gives (.initial ⟨.bcm5325E, 0⟩) (.setVlanBase 0x123) (.ok ()) c' ∧ c'.vlanBase = 0x120 := by
  have hc := Config.Reachable.initial ⟨.bcm5325E, 0⟩
  obtain ⟨hmembers, hpvid, hbase⟩ := setters_refuse_or_set hc
  obtain ⟨c₁, listed, hset, -⟩ := hmembers 0 []
  obtain ⟨c₂, hround, -, hrounded⟩ := hbase 0x123
  exact ⟨hc, hmembers 3 [⟨0, false⟩, ⟨7, false⟩, ⟨6, true⟩], ⟨c₁, hset⟩, hpvid 6 99, hpvid 5 15,
    hbase 5000, c₂, hround, UInt16.toNat_inj.mp hrounded⟩

end Switch

end EtherSwitch
