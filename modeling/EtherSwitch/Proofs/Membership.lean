import EtherSwitch.Proofs.Configuration
import EtherSwitch.Register.Bank

/-! Making ports the members of an entry of the VLAN table. The list may mention a port more than once: its last
    mention tells whether the port sends tagged, and any untagged mention makes the entry its own VLAN
    (`Config.tagged_joined`, `Config.pvid_joined`). What is read back are the last mentions, in ascending order
    of the ports (`Switch.setVlanPorts_reads_back`). -/

namespace EtherSwitch

/-- The list mentions the port of `m` for the last time in `m`. -/
def VlanPort.LastIn (m : VlanPort) (list : List VlanPort) : Prop :=
  ∃ before after, list = before ++ m :: after ∧ ∀ other ∈ after, other.port ≠ m.port

theorem VlanPort.LastIn.mem {m : VlanPort} {list : List VlanPort} (h : m.LastIn list) : m ∈ list := by
  obtain ⟨before, after, rfl, -⟩ := h
  exact List.mem_append_right before List.mem_cons_self

/-- A port that is mentioned is mentioned for a last time. -/
theorem VlanPort.exists_lastIn {list : List VlanPort} {port : UInt8} (h : ∃ m ∈ list, m.port = port) :
    ∃ m : VlanPort, m.LastIn list ∧ m.port = port := by
  induction list with
  | nil =>
    obtain ⟨m, hm, -⟩ := h
    cases hm
  | cons first list ih =>
    by_cases hlater : ∃ m ∈ list, m.port = port
    · obtain ⟨m, ⟨before, after, rfl, hlast⟩, hport⟩ := ih hlater
      exact ⟨m, ⟨first :: before, after, rfl, hlast⟩, hport⟩
    · obtain ⟨m, hm, rfl⟩ := h
      rcases List.mem_cons.mp hm with rfl | hm
      · exact ⟨m, ⟨[], list, rfl, fun other hother hport => hlater ⟨other, hother, hport⟩⟩, rfl⟩
      · exact absurd ⟨m, hm, rfl⟩ hlater

namespace PortConfig

@[simp] theorem tagged_join (index : UInt16) (tagged : Bool) (p : PortConfig) :
    (p.join index tagged).tagged = tagged := by
  cases tagged <;> rfl

@[simp] theorem pvid_join (index : UInt16) (tagged : Bool) (p : PortConfig) :
    (p.join index tagged).pvid = if tagged then p.pvid else index := by
  cases tagged <;> rfl

end PortConfig

namespace Config

/-! ### Joining an entry -/

/-- The ports after those listed have joined an entry, one after the other. -/
def joined (index : UInt16) (list : List VlanPort) (ports : List PortConfig) : List PortConfig :=
  list.foldl (fun ports m => ports.modify m.port.toNat (.join index m.tagged)) ports

section
variable {index : UInt16} {list : List VlanPort} {ports : List PortConfig} {i : Nat}

theorem joined_append (index : UInt16) (before after : List VlanPort) (ports : List PortConfig) :
    joined index (before ++ after) ports = joined index after (joined index before ports) := List.foldl_append

theorem joined_cons (index : UInt16) (m : VlanPort) (list : List VlanPort) (ports : List PortConfig) :
    joined index (m :: list) ports = joined index list (ports.modify m.port.toNat (.join index m.tagged)) := rfl

theorem length_joined (index : UInt16) (list : List VlanPort) (ports : List PortConfig) :
    (joined index list ports).length = ports.length := by
  induction list generalizing ports with
  | nil => rfl
  | cons m list ih => rw [joined_cons, ih, List.length_modify]

/-- A port that is not listed keeps its configuration. -/
theorem getElem?_joined_of_absent (h : ∀ m ∈ list, m.port.toNat ≠ i) :
    (joined index list ports)[i]? = ports[i]? := by
  induction list generalizing ports with
  | nil => rfl
  | cons m list ih =>
    rw [joined_cons, ih fun other hother => h other (List.mem_cons_of_mem m hother), List.getElem?_modify]
    simp [h m List.mem_cons_self]

/-- A port takes the entry as its own VLAN if it is listed untagged anywhere. -/
theorem pvid_joined (index : UInt16) (list : List VlanPort) (ports : List PortConfig) (i : Nat) :
    (joined index list ports)[i]?.map PortConfig.pvid =
      ports[i]?.map fun p => if ∃ m ∈ list, m.port.toNat = i ∧ m.tagged = false then index else p.pvid := by
  induction list generalizing ports with
  | nil => simp [joined]
  | cons m list ih =>
    rw [joined_cons, ih, List.getElem?_modify, Option.map_eq_map, Option.map_map]
    congr 1
    funext p
    by_cases hm : m.port.toNat = i
    · cases htag : m.tagged <;> simp [hm, htag]
    · simp [hm]

theorem map_const_joined {α : Type} (index : UInt16) (list : List VlanPort) (ports : List PortConfig) (i : Nat)
    (a : α) :
    (joined index list ports)[i]?.map (fun _ => a) = ports[i]?.map fun _ => a := by
  rw [← List.getElem?_map, ← List.getElem?_map, List.map_const', List.map_const', length_joined]

/-- A listed port sends as its last mention says. -/
theorem tagged_joined {m : VlanPort} (h : m.LastIn list) (index : UInt16) (ports : List PortConfig) :
    (joined index list ports)[m.port.toNat]?.map PortConfig.tagged = ports[m.port.toNat]?.map fun _ =>
      m.tagged := by
  obtain ⟨before, after, rfl, hlast⟩ := h
  have habsent : ∀ other ∈ after, other.port.toNat ≠ m.port.toNat := fun other hother heq =>
    hlast other hother (UInt8.toNat_inj.mp heq)
  rw [joined_append, joined_cons, getElem?_joined_of_absent habsent, List.getElem?_modify,
    Option.map_eq_map, Option.map_map, ← map_const_joined index before ports]
  congr 1
  funext p
  simp

/-- Joining an entry again as before changes nothing. -/
theorem joined_joined (index : UInt16) (list : List VlanPort) (ports : List PortConfig) :
    joined index list (joined index list ports) = joined index list ports := by
  have hext : ∀ {x y : Option PortConfig}, x.map PortConfig.pvid = y.map PortConfig.pvid →
      x.map PortConfig.tagged = y.map PortConfig.tagged → x = y := by
    rintro (_ | ⟨pvid, tagged⟩) (_ | ⟨pvid', tagged'⟩) hpvid htagged
    · rfl
    · cases hpvid
    · cases hpvid
    · obtain rfl : pvid = pvid' := Option.some.inj hpvid
      obtain rfl : tagged = tagged' := Option.some.inj htagged
      rfl
  refine List.ext_getElem? fun i => ?_
  by_cases hlisted : ∃ m ∈ list, m.port.toNat = i
  · obtain ⟨m, hm, rfl⟩ := hlisted
    obtain ⟨last, hlast, hport⟩ := VlanPort.exists_lastIn ⟨m, hm, rfl⟩
    rw [← hport]
    refine hext ?_ ?_
    · rw [pvid_joined]
      by_cases huntagged : ∃ m ∈ list, m.port.toNat = last.port.toNat ∧ m.tagged = false
      · simp only [pvid_joined, huntagged, if_true, map_const_joined]
      · simp only [huntagged, if_false]
    · rw [tagged_joined hlast, map_const_joined, tagged_joined hlast]
  · exact getElem?_joined_of_absent fun m hm heq => hlisted ⟨m, hm, heq⟩

end

/-! ### Members of an entry -/

section
variable {c : Config} {index : UInt16} {list : List VlanPort}

/-- The configuration with the listed ports as the members of an entry. -/
def withMembers (c : Config) (index : UInt16) (list : List VlanPort) : Config :=
  { c with
    ports := joined index list c.ports
    vlans := c.vlans.set index.toNat
      ⟨list.foldl (fun mask m => mask ||| .single m.port.toNat) 0,
        list.foldl (fun mask m => mask ||| .single m.port.toNat) (0 : PortMask) != 0⟩ }

/-- Of a list of ports, the first one that the chip does not have is refused. -/
theorem forM_checkPort (c : Config) (list : List VlanPort) :
    (list.forM fun m => c.checkPort m.port) =
      match list.find? fun m => c.chip.numPorts ≤ m.port with
      | some m => .error (.invalidPort m.port c.chip.numPorts)
      | none => .ok ⟨⟩ := by
  induction list with
  | nil => rfl
  | cons m list ih =>
    rw [List.forM_eq_forM, List.forM_cons, checkPort]
    by_cases hport : m.port < c.chip.numPorts
    · rw [if_pos hport, List.find?_cons_of_neg (by simpa using hport)]
      exact ih
    · rw [if_neg hport, List.find?_cons_of_pos (by simpa using hport)]
      rfl

/-- What setting the members of an entry comes to: the index is looked at first, then whether the entry is
    reserved, then the ports. -/
theorem setVlanPorts_eq (c : Config) (index : UInt16) (list : List VlanPort) :
    c.setVlanPorts index list =
      if c.chip.numVlans ≤ index then .error (.invalidVlanIndex index c.chip.numVlans)
      else if index = 0 ∧ c.chip.family = .gigabit then .error (.reservedVlan index)
      else
        match list.find? fun m => c.chip.numPorts ≤ m.port with
        | some m => .error (.invalidPort m.port c.chip.numPorts)
        | none => .ok (c.withMembers index list) := by
  rw [setVlanPorts, checkVlanIndex, forM_checkPort]
  by_cases hindex : index < c.chip.numVlans
  · rw [if_pos hindex, if_neg (UInt16.not_le.mpr hindex)]
    by_cases hreserved : index = 0 ∧ c.chip.family = .gigabit
    · rw [if_pos hreserved, if_pos hreserved]
      rfl
    · rw [if_neg hreserved, if_neg hreserved]
      cases list.find? fun m => c.chip.numPorts ≤ m.port <;> rfl
  · rw [if_neg hindex, if_pos (UInt16.not_lt.mp hindex)]
    rfl

theorem setVlanPorts_of_valid (hindex : index < c.chip.numVlans)
    (hreserved : ¬(index = 0 ∧ c.chip.family = .gigabit)) (hports : ∀ m ∈ list, m.port < c.chip.numPorts) :
    c.setVlanPorts index list = .ok (c.withMembers index list) := by
  have hnone : (list.find? fun m => c.chip.numPorts ≤ m.port) = none :=
    List.find?_eq_none.mpr fun m hm => by simpa using hports m hm
  rw [setVlanPorts_eq, if_neg (UInt16.not_le.mpr hindex), if_neg hreserved, hnone]

/-- The members of an entry come in ascending order. -/
theorem WellFormed.members_ascending (h : c.WellFormed) (entry : VlanEntry) :
    (c.members entry).Pairwise (·.port < ·.port) := by
  rw [Config.members]
  split
  case isFalse => exact List.Pairwise.nil
  case isTrue =>
    have hplaces : c.ports.zipIdx.Pairwise (·.2 < ·.2) := by
      rw [← List.pairwise_map (f := Prod.snd) (R := (· < ·)), List.zipIdx_map_snd]
      exact List.pairwise_lt_range'
    have hport : ∀ {x : PortConfig × Nat} {m : VlanPort}, x ∈ c.ports.zipIdx →
        (if entry.members.getLsbD x.2 then some ⟨UInt8.ofNat x.2, x.1.tagged⟩ else none) = some m →
          m.port.toNat = x.2 := by
      intro x m hx hm
      split at hm
      · obtain rfl := Option.some.inj hm
        exact (h.port_place (List.mem_zipIdx_iff_getElem?.mp hx)).2
      · cases hm
    refine List.pairwise_filterMap.mpr (hplaces.imp_of_mem fun hx hy hlt m hm m' hm' => ?_)
    rwa [UInt8.lt_iff_toNat_lt, hport hx hm, hport hy hm']

theorem WellFormed.vlan_withMembers (h : c.WellFormed) (hindex : index < c.chip.numVlans)
    (list : List VlanPort) :
    (c.withMembers index list).vlan index =
      ⟨list.foldl (fun mask m => mask ||| .single m.port.toNat) 0,
        list.foldl (fun mask m => mask ||| .single m.port.toNat) (0 : PortMask) != 0⟩ := by
  rw [vlan, withMembers, List.getElem?_set_self (h.lt_vlans hindex), Option.getD_some]

theorem vlan_withMembers_of_ne (c : Config) (list : List VlanPort) {i : UInt16} (hi : i ≠ index) :
    (c.withMembers index list).vlan i = c.vlan i := by
  have hne : index.toNat ≠ i.toNat := fun heq => hi (UInt16.toNat_inj.mp heq).symm
  exact congrArg (fun entry : Option VlanEntry => entry.getD {}) (List.getElem?_set_ne hne)

/-- A port is in the set of the listed ports if it is listed. -/
theorem getLsbD_listed (c : Config) (hports : ∀ m ∈ list, m.port < c.chip.numPorts) (i : Nat) :
    (list.foldl (fun mask m => mask ||| .single m.port.toNat) (0 : PortMask)).getLsbD i = true ↔
      ∃ m ∈ list, m.port.toNat = i := by
  rw [getLsbD_union]
  have hbound := c.chip.numPorts_le
  constructor
  · intro h
    obtain ⟨-, hany⟩ : i < 16 ∧ (list.any fun m => m.port.toNat == i) = true := by simpa using h
    obtain ⟨m, hm, heq⟩ := List.any_eq_true.mp hany
    exact ⟨m, hm, beq_iff_eq.mp heq⟩
  · rintro ⟨m, hm, rfl⟩
    have hlt := UInt8.lt_iff_toNat_lt.mp (hports m hm)
    have hany : (list.any fun other => other.port.toNat == m.port.toNat) = true :=
      List.any_eq_true.mpr ⟨m, hm, beq_self_eq_true _⟩
    rw [hany, decide_eq_true (by omega)]
    simp

/-- A listed port is configured as its last mention says. -/
theorem WellFormed.tagged_withMembers (h : c.WellFormed) (index : UInt16)
    (hports : ∀ m ∈ list, m.port < c.chip.numPorts)
    {m : VlanPort} (hlast : m.LastIn list) : ∃ p, (c.withMembers index list).ports[m.port.toNat]? = some p ∧
      p.tagged = m.tagged := by
  have htagged := tagged_joined hlast index c.ports
  rw [h.port_mem (hports m hlast.mem), Option.map_some] at htagged
  exact Option.map_eq_some_iff.mp htagged

/-- The members of the entry are the last mentions of the listed ports. -/
theorem WellFormed.mem_members_withMembers (h : c.WellFormed) (hindex : index < c.chip.numVlans)
    (hports : ∀ m ∈ list, m.port < c.chip.numPorts) (m : VlanPort) :
    m ∈ (c.withMembers index list).members ((c.withMembers index list).vlan index) ↔ m.LastIn list := by
  rw [mem_members, h.vlan_withMembers hindex]
  constructor
  · rintro ⟨-, i, p, hi, hbit, rfl⟩
    obtain ⟨listed, hlisted, rfl⟩ := (getLsbD_listed c hports i).mp hbit
    obtain ⟨last, hlast, hport⟩ := VlanPort.exists_lastIn ⟨listed, hlisted, rfl⟩
    obtain ⟨q, hq, htagged⟩ := h.tagged_withMembers index hports hlast
    obtain rfl : p = q := Option.some.inj (hi.symm.trans (hport ▸ hq))
    rwa [htagged, ← hport, UInt8.ofNat_toNat]
  · intro hlast
    obtain ⟨p, hp, htagged⟩ := h.tagged_withMembers index hports hlast
    have hbit := (getLsbD_listed c hports m.port.toNat).mpr ⟨m, hlast.mem, rfl⟩
    refine ⟨bne_iff_ne.mpr fun hzero => ?_, m.port.toNat, p, hp, hbit, by rw [htagged, UInt8.ofNat_toNat]⟩
    rw [hzero] at hbit
    simp at hbit

/-- A listed port has the entry as its own VLAN if the list has it untagged anywhere, and
    else the one it had. -/
theorem WellFormed.pvid_withMembers (h : c.WellFormed) (hports : ∀ m ∈ list, m.port < c.chip.numPorts)
    {m : VlanPort} (hm : m ∈ list) : ((c.withMembers index list).port m.port).pvid =
      if ∃ other ∈ list, other.port = m.port ∧ other.tagged = false then index else (c.port m.port).pvid := by
  have hpvid := pvid_joined index list c.ports m.port.toNat
  simp only [h.port_mem (hports m hm), Option.map_some, UInt8.toNat_inj] at hpvid
  obtain ⟨p, hp, hpvid⟩ := Option.map_eq_some_iff.mp hpvid
  rw [port, withMembers, hp, Option.getD_some, hpvid]

theorem port_withMembers_of_absent (c : Config) (index : UInt16) {port : UInt8}
    (h : ∀ m ∈ list, m.port ≠ port) :
    (c.withMembers index list).port port = c.port port := by
  have habsent : ∀ m ∈ list, m.port.toNat ≠ port.toNat := fun m hm heq => h m hm (UInt8.toNat_inj.mp heq)
  exact congrArg (fun p : Option PortConfig => p.getD {}) (getElem?_joined_of_absent habsent)

theorem withMembers_withMembers (c : Config) (index : UInt16) (list : List VlanPort) :
    (c.withMembers index list).withMembers index list = c.withMembers index list := by
  simp only [withMembers, joined_joined, List.set_set]

end

end Config

namespace Switch
variable {σ : Type} {c : Config} {index : UInt16} {members : List VlanPort}

/-- The last mentions of the ports, by ascending port, are what is read back. -/
theorem gives_members (h : c.WellFormed) (hindex : index < c.chip.numVlans)
    (hreserved : ¬(index = 0 ∧ c.chip.family = .gigabit)) (hports : ∀ m ∈ members, m.port < c.chip.numPorts) :
    ∃ listed, Gives (c.withMembers index members) (.vlanPorts index) (.ok listed)
      (c.withMembers index members) ∧
      listed.Pairwise (·.port < ·.port) ∧ ∀ m, m ∈ listed ↔ m.LastIn members := by
  have hset := Config.setVlanPorts_of_valid hindex hreserved hports
  have hgives := gives_vlanPorts (c.withMembers index members) index
  rw [Config.vlanPorts_of_lt (c := c.withMembers index members) hindex] at hgives
  exact ⟨_, hgives, (h.setVlanPorts hset).members_ascending _, h.mem_members_withMembers hindex hports⟩

/-- Setting the members of an entry and reading them back, on any registers: what is read are the last
    mentions of the ports in the list, by ascending port. They say how the ports send; a port has the
    entry as its own VLAN if the list has it untagged anywhere. Nothing else changes, and the same
    once more changes nothing at all. -/
theorem setVlanPorts_reads_back (hc : c.Reachable) (hindex : index < c.chip.numVlans)
    (hreserved : ¬(index = 0 ∧ c.chip.family = .gigabit)) (hports : ∀ m ∈ members, m.port < c.chip.numPorts)
    (d : Device Registers σ) (s : σ) :
    ∃ c' listed, layer.device d (.setVlanPorts index members) (c, s) = (.ok (), c', s) ∧
      layer.device d (.vlanPorts index) (c', s) = (.ok listed, c', s) ∧
      listed.Pairwise (·.port < ·.port) ∧ (∀ m, m ∈ listed ↔ m.LastIn members) ∧
      (∀ m ∈ listed, (c'.port m.port).tagged = m.tagged) ∧
      (∀ m ∈ members, (c'.port m.port).pvid =
        if ∃ other ∈ members, other.port = m.port ∧ other.tagged = false then index else (c.port m.port).pvid) ∧
      (∀ port, (∀ m ∈ members, m.port ≠ port) → c'.port port = c.port port) ∧
      (∀ i, i ≠ index → c'.vlan i = c.vlan i) ∧
      c'.identity = c.identity ∧ c'.vlanEnabled = c.vlanEnabled ∧ c'.vlanBase = c.vlanBase ∧
      layer.device d (.setVlanPorts index members) (c', s) = (.ok (), c', s) := by
  have hwell := hc.wellFormed
  have hset := Config.setVlanPorts_of_valid hindex hreserved hports
  have hagain : (c.withMembers index members).setVlanPorts index members = .ok (c.withMembers index members) :=
    (Config.setVlanPorts_of_valid (c := c.withMembers index members) hindex hreserved hports).trans
      (congrArg Except.ok (c.withMembers_withMembers index members))
  obtain ⟨listed, hread, hascending, hlisted⟩ := gives_members hwell hindex hreserved hports
  refine ⟨c.withMembers index members, listed, ?_, hread.device d s, hascending, hlisted, fun m hm => ?_,
    fun m hm => hwell.pvid_withMembers hports hm, fun port hport => c.port_withMembers_of_absent index hport,
    fun i hi => c.vlan_withMembers_of_ne members hi, rfl, rfl, rfl, ?_⟩
  · rw [(gives_setVlanPorts c index members).device d s, hset]
    rfl
  · obtain ⟨p, hp, htagged⟩ := hwell.tagged_withMembers index hports ((hlisted m).mp hm)
    rw [Config.port, hp, Option.getD_some, htagged]
  · rw [(gives_setVlanPorts _ index members).device d s, hagain]
    rfl

/-- A list that has the CPU port untagged first and tagged later. -/
def undecided : List VlanPort := [⟨5, false⟩, ⟨2, true⟩, ⟨5, true⟩]

theorem setVlanPorts_reads_back_undecided :
    (Config.initial ⟨.bcm5325E, 0⟩).Reachable ∧ (3 : UInt16) < Chip.bcm5325E.numVlans ∧
      ¬((3 : UInt16) = 0 ∧ Chip.bcm5325E.family = .gigabit) ∧
        (∀ m ∈ undecided, m.port < Chip.bcm5325E.numPorts) ∧
      ∃ c' listed, layer.device Bank.device (.setVlanPorts 3 undecided) (.initial ⟨.bcm5325E, 0⟩, {}) =
        (.ok (), c', {}) ∧
        layer.device Bank.device (.vlanPorts 3) (c', {}) = (.ok listed, c', {}) ∧
        (⟨5, true⟩ ∈ listed ∧ ⟨5, false⟩ ∉ listed) ∧ ((c'.port 5).tagged, (c'.port 5).pvid) = (true, 3) ∧
        ((c'.port 2).tagged, (c'.port 2).pvid) = (true, 0) := by
  have hindex : (3 : UInt16) < Chip.bcm5325E.numVlans := by decide
  have hreserved : ¬((3 : UInt16) = 0 ∧ Chip.bcm5325E.family = .gigabit) := by decide
  have hports : ∀ m ∈ undecided, m.port < Chip.bcm5325E.numPorts := by decide
  obtain ⟨c', listed, hset, hread, -, hlisted, htagged, hpvid, -⟩ :=
    setVlanPorts_reads_back (.initial ⟨.bcm5325E, 0⟩) hindex hreserved hports Bank.device {}
  have hcpu : ⟨5, true⟩ ∈ listed := (hlisted _).mpr ⟨[⟨5, false⟩, ⟨2, true⟩], [], rfl, by decide⟩
  have hlan : ⟨2, true⟩ ∈ listed := (hlisted _).mpr ⟨[⟨5, false⟩], [⟨5, true⟩], rfl, by decide⟩
  have hcpuPvid : (c'.port 5).pvid = 3 := hpvid ⟨5, true⟩ (by decide)
  have hlanPvid : (c'.port 2).pvid = 0 := hpvid ⟨2, true⟩ (by decide)
  refine ⟨.initial _, hindex, hreserved, hports, c', listed, hset, hread, ⟨hcpu, fun huntagged => ?_⟩, ?_, ?_⟩
  · exact Bool.noConfusion ((htagged _ hcpu).symm.trans (htagged ⟨5, false⟩ huntagged))
  · rw [htagged _ hcpu, hcpuPvid]
  · rw [htagged _ hlan, hlanPvid]

end Switch

end EtherSwitch
