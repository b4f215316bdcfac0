import EtherSwitch.Proofs.Layout
import EtherSwitch.Proofs.Scripts
import EtherSwitch.Switch

/-! The configurations that operations reach. What an operation makes of the configuration does not depend
    on the device under the switch (`Switch.config_eq_after`), and every operation keeps a configuration
    well formed (`Config.Reachable.wellFormed`). -/

namespace EtherSwitch

namespace Switch
variable {σ : Type} (d : Device Registers σ) (c : Config) (s : σ)

/-- The configuration after a change, if the change was accepted. -/
def accepted (x : Except Error Config) : Config :=
  match x with
  | .ok c' => c'
  | .error _ => c

/-- The configuration after an operation. -/
def Operation.after : Operation → Config → Config
  | .setVlanEnabled on, c => c.setVlanEnabled on
  | .setVlanBase base, c => accepted c (c.setVlanBase base)
  | .setPortPvid port vid, c => accepted c (c.setPortPvid port vid)
  | .setVlanPorts index members, c => accepted c (c.setVlanPorts index members)
  | .resetSwitch, c => c.clear
  | _, c => c

theorem run_script {α : Type} (f : Config → Script α) :
    Program.run d ((script f).run.run c) s = (((Script.runOn d (f c) s).1, c), (Script.runOn d (f c) s).2) := by
  show Program.run d ((f c).run >>= fun result => Program.done (result, c)) s = _
  rw [Program.run_bind]
  rfl

/-- Looking at the configuration makes no access. -/
theorem look_eq_done {α : Type} (f : Config → Except Error α) : (look f).run.run c = .done (f c, c) := by
  show (look fun _ => f c).run.run c = _
  cases f c <;> rfl

/-- Changing the configuration makes no access. -/
theorem change_eq_done (f : Config → Except Error Config) :
    (change f).run.run c = .done ((f c).map fun _ => (), accepted c (f c)) := by
  show (change fun _ => f c).run.run c = _
  cases f c <;> rfl

theorem run_look {α : Type} (f : Config → Except Error α) :
    Program.run d ((look f).run.run c) s = ((f c, c), s) := by
  rw [look_eq_done, Program.run_done]

theorem run_change (f : Config → Except Error Config) :
    Program.run d ((change f).run.run c) s = (((f c).map fun _ => (), accepted c (f c)), s) := by
  rw [change_eq_done, Program.run_done]

/-- On a configuration, the operation gives an answer and leaves a configuration without any access. -/
def Gives (c : Config) (op : Operation) (answer : Except Error op.Result) (c' : Config) : Prop :=
  (layer op).run c = .done (answer, c')

/-- What makes no access is the same over every device, and leaves the device alone. -/
theorem Gives.device {c c' : Config} {op : Operation} {answer : Except Error op.Result}
    (h : Gives c op answer c')
    (d : Device Registers σ) (s : σ) : layer.device d op (c, s) = (answer, c', s) := by
  rw [Layer.device, show (layer op).run c = .done (answer, c') from h, Program.run_done]

theorem gives_setVlanBase (base : UInt16) :
    Gives c (.setVlanBase base) ((c.setVlanBase base).map fun _ => ()) (accepted c (c.setVlanBase base)) :=
  change_eq_done c _

theorem gives_portPvid (port : UInt8) : Gives c (.portPvid port) (c.portPvid port) c := look_eq_done c _

theorem gives_setPortPvid (port : UInt8) (vid : UInt16) :
    Gives c (.setPortPvid port vid) ((c.setPortPvid port vid).map fun _ => ())
      (accepted c (c.setPortPvid port vid)) :=
  change_eq_done c _

theorem gives_vlanPorts (index : UInt16) : Gives c (.vlanPorts index) (c.vlanPorts index) c := look_eq_done c _

theorem gives_setVlanPorts (index : UInt16) (members : List VlanPort) :
    Gives c (.setVlanPorts index members) ((c.setVlanPorts index members).map fun _ => ())
      (accepted c (c.setVlanPorts index members)) := change_eq_done c _

/-- Applying the configuration runs its script and leaves the configuration alone. -/
theorem device_applyConfig :
    layer.device d .applyConfig (c, s) =
      ((Script.runOn d (applyConfig c) s).1, c, (Script.runOn d (applyConfig c) s).2) := by
  have h := run_script d c s applyConfig
  exact congrArg (fun r => (r.1.1, r.1.2, r.2)) h

/-- A reset clears the configuration and runs its script on the cleared one. -/
theorem device_resetSwitch :
    layer.device d .resetSwitch (c, s) =
      ((Script.runOn d (do c.clear.chip.family.reset c.clear.chip; applyConfig c.clear) s).1, c.clear,
        (Script.runOn d (do c.clear.chip.family.reset c.clear.chip; applyConfig c.clear) s).2) := by
  have h := run_script d c.clear s fun c => do
    c.chip.family.reset c.chip
    applyConfig c
  exact congrArg (fun r => (r.1.1, r.1.2, r.2)) h

/-- What an operation makes of the configuration does not depend on the device under the switch. -/
theorem config_eq_after (op : Operation) : (layer.device d op (c, s)).2.1 = op.after c := by
  have hscript :
      ∀ {α : Type} (f : Config → Script α), (Program.run d ((script f).run.run c) s).1.2 = c := fun f => by
    rw [run_script]
  have hlook : ∀ {α : Type} (f : Config → Except Error α),
      (Program.run d ((look f).run.run c) s).1.2 = c := fun f => by
    rw [run_look]
  have hchange : ∀ f :
      Config → Except Error Config, (Program.run d ((change f).run.run c) s).1.2 = accepted c (f c) :=
    fun f => by rw [run_change]
  cases op with
  | config => rfl
  | setVlanEnabled on => rfl
  | setVlanBase base => exact hchange _
  | portPvid port => exact hlook _
  | setPortPvid port vid => exact hchange _
  | vlanPorts index => exact hlook _
  | setVlanPorts index members => exact hchange _
  | applyConfig => exact hscript _
  | resetSwitch => exact congrArg (fun r => r.2.1) (device_resetSwitch d c s)
  | portLink port => exact hscript _
  | portLinks => exact hscript _
  | setManaged on => exact hscript fun _ => EtherSwitch.setManaged on false
  | readRegister a => exact hscript fun _ => Script.read a
  | writeRegister a value => exact hscript fun _ => Script.write a value

/-! ### The calls of tasks -/

section
variable {P : Registers.Call → Prop} {α : Type} {c}

theorem calls_script {f : Config → Script α} (hf : Script.Uses P (f c)) : ((script f).run.run c).Calls P :=
  hf.calls.bind fun _ => trivial

theorem calls_look (f : Config → Except Error α) : ((look f).run.run c).Calls P := by
  rw [look_eq_done]
  trivial

theorem calls_change (f : Config → Except Error Config) : ((change f).run.run c).Calls P := by
  rw [change_eq_done]
  trivial

end

end Switch

namespace Config

/-- The configurations that a switch can have, whatever device is under it. -/
inductive Reachable : Config → Prop where
  | initial (identity : Identity) : Reachable (.initial identity)
  | perform {σ : Type} (d : Device Registers σ) (op : Switch.Operation) (s : σ) {c : Config} :
      Reachable c → Reachable (Switch.layer.device d op (c, s)).2.1

/-- Whatever the registers answer, an operation changes the configuration in the same way. -/
theorem Reachable.after {c : Config} (h : c.Reachable) (op : Switch.Operation) : (op.after c).Reachable := by
  rw [← Switch.config_eq_after (fun | .read _, s => (.ok 0, s) | .write _ _, s => (.ok (), s)) c () op]
  exact h.perform _ op ()

/-- A configuration that fits its chip. -/
structure WellFormed (c : Config) : Prop where
  ports : c.ports.length = c.chip.numPorts.toNat
  vlans : c.vlans.length = c.chip.numVlans.toNat
  /-- VLAN ids fit into the default tag. -/
  pvid : ∀ p ∈ c.ports, p.pvid ≤ c.chip.maxVid
  /-- Members are ports of the chip. -/
  members : ∀ e ∈ c.vlans, ∀ i, c.chip.numPorts.toNat ≤ i → e.members.getLsbD i = false
  /-- The valid entries are those with members. -/
  valid : ∀ e ∈ c.vlans, e.valid = (e.members != 0)
  /-- The base is a multiple of the table size. -/
  base : c.vlanBase.toNat % 16 = 0
  base_le : c.vlanBase ≤ vidLimit
  base_gigabit : c.chip.family = .gigabit → c.vlanBase = 0
  /-- The reserved entry of the gigabit chips is empty. -/
  reserved : c.chip.family = .gigabit → c.vlan 0 = {}

section
variable {c c' : Config}

theorem getLsbD_single (port i : Nat) : (PortMask.single port).getLsbD i = (decide (i < 16) && port == i) := by
  rw [PortMask.single, BitVec.getLsbD_shiftLeft, BitVec.getLsbD_one]
  by_cases h : port = i
  · simp [h]
  · have hne : (port == i) = false := beq_eq_false_iff_ne.mpr h
    rw [hne, Bool.and_false]
    by_cases hi : i < port
    · simp [hi]
    · have hpos : ¬i - port = 0 := by omega
      simp [hpos]

theorem mem_modify {α : Type} {xs : List α} {i : Nat} {f : α → α} {x : α} (h : x ∈ xs.modify i f) :
    x ∈ xs ∨ ∃ y ∈ xs, f y = x := by
  obtain ⟨j, hj⟩ := List.mem_iff_getElem?.mp h
  rw [List.getElem?_modify] at hj
  obtain ⟨y, hy, hyx⟩ := Option.map_eq_some_iff.mp hj
  split at hyx
  · exact Or.inr ⟨y, List.mem_of_getElem? hy, hyx⟩
  · exact Or.inl (hyx ▸ List.mem_of_getElem? hy)

theorem WellFormed.initial (identity : Identity) : (Config.initial identity).WellFormed where
  ports := List.length_replicate
  vlans := List.length_replicate
  pvid p hp := by
    rw [List.eq_of_mem_replicate hp]
    exact UInt16.zero_le
  members e he i _ := by
    rw [List.eq_of_mem_replicate he]
    exact BitVec.getLsbD_zero
  valid e he := by
    rw [List.eq_of_mem_replicate he]
    rfl
  base := rfl
  base_le := UInt16.zero_le
  base_gigabit _ := rfl
  reserved _ := rfl

theorem WellFormed.setVlanEnabled (h : c.WellFormed) (on : Bool) :
    (c.setVlanEnabled on).WellFormed := { h with }

theorem WellFormed.setVlanBase (h : c.WellFormed) {base : UInt16} (hc : c.setVlanBase base = .ok c') :
    c'.WellFormed := by
  unfold Config.setVlanBase at hc
  split at hc
  · cases hc
  case isFalse hfamily =>
    split at hc
    · cases hc
    case isFalse hlimit =>
      obtain rfl := Except.ok.inj hc
      refine { h with base := ?_, base_le := ?_, base_gigabit := fun hg => ?_ }
      · have hlow : (~~~(16 - 1) : UInt16).toNat % 2 ^ 4 = 0 := by decide
        show (base.toNat &&& (~~~(16 - 1) : UInt16).toNat) % 2 ^ 4 = 0
        rw [Nat.and_mod_two_pow, hlow, Nat.and_zero]
      · exact Nat.le_trans Nat.and_le_left (UInt16.not_lt.mp hlimit)
      · have hzero : base = 0 := Decidable.not_not.mp fun hb => hfamily ⟨hg, hb⟩
        exact (congrArg (· &&& ~~~(c.chip.numVlans - 1)) hzero).trans UInt16.zero_and

theorem WellFormed.setPortPvid (h : c.WellFormed) {port : UInt8} {vid : UInt16}
    (hc : c.setPortPvid port vid = .ok c') :
    c'.WellFormed := by
  unfold Config.setPortPvid checkPort at hc
  split at hc
  · split at hc
    · cases hc
    case isFalse hvid =>
      obtain rfl := Except.ok.inj hc
      refine { h with ports := ?_, pvid := fun p hp => ?_ }
      · exact (List.length_modify _ _ _).trans h.ports
      · rcases mem_modify hp with hp | ⟨q, hq, rfl⟩
        · exact h.pvid p hp
        · exact UInt16.not_lt.mp hvid
  · cases hc

theorem ports_of_checks {members : List VlanPort} {u : PUnit}
    (h : members.forM (fun m => c.checkPort m.port) = .ok u) :
    ∀ m ∈ members, m.port < c.chip.numPorts := by
  induction members with
  | nil =>
    intro m hm
    cases hm
  | cons m members ih =>
    rw [List.forM_eq_forM, List.forM_cons] at h
    by_cases hport : m.port < c.chip.numPorts
    · have hcheck : c.checkPort m.port = .ok () := if_pos hport
      rw [hcheck] at h
      exact List.forall_mem_cons.mpr ⟨hport, ih h⟩
    · have hcheck : c.checkPort m.port = .error (.invalidPort m.port c.chip.numPorts) := if_neg hport
      rw [hcheck] at h
      cases h

/-- What a list of members must be for an entry to take it, and what it makes of the configuration. -/
theorem setVlanPorts_eq_ok {index : UInt16} {members : List VlanPort}
    (hc : c.setVlanPorts index members = .ok c') :
    index < c.chip.numVlans ∧ ¬(index = 0 ∧ c.chip.family = .gigabit) ∧
      (∀ m ∈ members, m.port < c.chip.numPorts) ∧
      c' = { c with
        ports := members.foldl (fun ports m => ports.modify m.port.toNat (.join index m.tagged)) c.ports
        vlans := c.vlans.set index.toNat
          ⟨members.foldl (fun mask m => mask ||| .single m.port.toNat) 0,
            members.foldl (fun mask m => mask ||| .single m.port.toNat) (0 : PortMask) != 0⟩ } := by
  unfold setVlanPorts checkVlanIndex at hc
  split at hc
  case isFalse => cases hc
  case isTrue hindex =>
    split at hc
    · cases hc
    case isFalse hreserved =>
      cases hm : members.forM fun m => c.checkPort m.port with
      | error e =>
        rw [hm] at hc
        cases hc
      | ok u =>
        rw [hm] at hc
        exact ⟨hindex, hreserved, ports_of_checks hm, (Except.ok.inj hc).symm⟩

theorem getLsbD_union (members : List VlanPort) (mask : PortMask) (i : Nat) :
    (members.foldl (fun mask m => mask ||| .single m.port.toNat) mask).getLsbD i =
      (mask.getLsbD i || (decide (i < 16) && members.any fun m => m.port.toNat == i)) := by
  induction members generalizing mask with
  | nil => simp
  | cons m members ih =>
    rw [List.foldl_cons, ih, BitVec.getLsbD_or, getLsbD_single, List.any_cons, Bool.or_assoc,
      ← Bool.and_or_distrib_left]

theorem index_le_maxVid (chip : Chip) {index : UInt16} (h : index < chip.numVlans) : index ≤ chip.maxVid := by
  have hindex : index.toNat < 16 := h
  apply UInt16.le_iff_toNat_le.mpr
  have hmax : 15 ≤ chip.maxVid.toNat := by cases chip <;> decide
  omega

/-- Joining an entry keeps the number of ports, and the ids in range if the entry's index is. -/
theorem joined_ports {index limit : UInt16} (hindex : index ≤ limit) (members : List VlanPort)
    {ports : List PortConfig} (h : ∀ p ∈ ports, p.pvid ≤ limit) :
    (members.foldl (fun ports m => ports.modify m.port.toNat (.join index m.tagged)) ports).length =
      ports.length ∧
      ∀ p ∈ members.foldl (fun ports m => ports.modify m.port.toNat (.join index m.tagged)) ports,
        p.pvid ≤ limit := by
  induction members generalizing ports with
  | nil => exact ⟨rfl, h⟩
  | cons m members ih =>
    have hjoined : ∀ p ∈ ports.modify m.port.toNat (.join index m.tagged), p.pvid ≤ limit := by
      intro p hp
      rcases mem_modify hp with hp | ⟨q, hq, rfl⟩
      · exact h p hp
      · rw [PortConfig.join]
        split
        · exact h q hq
        · exact hindex
    obtain ⟨hlength, hpvid⟩ := ih hjoined
    exact ⟨hlength.trans (List.length_modify _ _ _), hpvid⟩

theorem WellFormed.setVlanPorts (h : c.WellFormed) {index : UInt16} {members : List VlanPort}
    (hc : c.setVlanPorts index members = .ok c') : c'.WellFormed := by
  obtain ⟨hindex, hreserved, hports, rfl⟩ := setVlanPorts_eq_ok hc
  obtain ⟨hlength, hpvid⟩ := joined_ports (index_le_maxVid c.chip hindex) members h.pvid
  refine { h with ports := ?_, vlans := ?_, pvid := hpvid, members := ?_, valid := ?_, reserved := ?_ }
  · exact hlength.trans h.ports
  · exact List.length_set.trans h.vlans
  · intro e he i hi
    rcases List.mem_or_eq_of_mem_set he with he | rfl
    · exact h.members e he i hi
    · have hnone : (members.any fun m => m.port.toNat == i) = false := by
        refine List.any_eq_false.mpr fun m hm => ?_
        have := UInt8.lt_iff_toNat_lt.mp (hports m hm)
        exact fun heq => absurd (beq_iff_eq.mp heq) (Nat.ne_of_lt (Nat.lt_of_lt_of_le this hi))
      rw [getLsbD_union, hnone, Bool.and_false, Bool.or_false]
      exact BitVec.getLsbD_zero
  · intro e he
    rcases List.mem_or_eq_of_mem_set he with he | rfl
    · exact h.valid e he
    · rfl
  · intro hg
    have hne : index.toNat ≠ 0 := fun hz => hreserved ⟨UInt16.toNat_inj.mp hz, hg⟩
    rw [← h.reserved hg]
    exact congrArg (fun entry : Option VlanEntry => entry.getD {}) (List.getElem?_set_ne hne)

/-- Every operation keeps a configuration well formed. -/
theorem WellFormed.after (h : c.WellFormed) (op : Switch.Operation) : (op.after c).WellFormed := by
  have haccepted : ∀ {x : Except Error Config}, (∀ c', x = .ok c' → c'.WellFormed) →
      (Switch.accepted c x).WellFormed := by
    intro x hx
    cases x with
    | ok c' => exact hx c' rfl
    | error e => exact h
  cases op with
  | setVlanEnabled on => exact h.setVlanEnabled on
  | setVlanBase base => exact haccepted fun c' hc => h.setVlanBase hc
  | setPortPvid port vid => exact haccepted fun c' hc => h.setPortPvid hc
  | setVlanPorts index members => exact haccepted fun c' hc => h.setVlanPorts hc
  | resetSwitch => exact .initial c.identity
  | _ => exact h

theorem Reachable.wellFormed (h : c.Reachable) : c.WellFormed := by
  induction h with
  | initial identity => exact .initial identity
  | perform d op s _ ih =>
    rw [Switch.config_eq_after]
    exact ih.after op

/-- The place of a port in the list is its number. -/
theorem WellFormed.lt_ports (h : c.WellFormed) {port : UInt8} (hport : port < c.chip.numPorts) :
    port.toNat < c.ports.length :=
  h.ports ▸ UInt8.lt_iff_toNat_lt.mp hport

theorem WellFormed.lt_vlans (h : c.WellFormed) {index : UInt16} (hindex : index < c.chip.numVlans) :
    index.toNat < c.vlans.length := h.vlans ▸ UInt16.lt_iff_toNat_lt.mp hindex

theorem WellFormed.port_mem (h : c.WellFormed) {port : UInt8} (hport : port < c.chip.numPorts) :
    c.ports[port.toNat]? = some (c.port port) := by
  rw [Config.port, List.getElem?_eq_getElem (h.lt_ports hport)]
  rfl

theorem WellFormed.vlan_mem (h : c.WellFormed) {index : UInt16} (hindex : index < c.chip.numVlans) :
    c.vlans[index.toNat]? = some (c.vlan index) := by
  rw [Config.vlan, List.getElem?_eq_getElem (h.lt_vlans hindex)]
  rfl

theorem WellFormed.port_place (h : c.WellFormed) {i : Nat} {p : PortConfig} (hi : c.ports[i]? = some p) :
    i < c.chip.numPorts.toNat ∧ (UInt8.ofNat i).toNat = i := by
  obtain ⟨hlt, -⟩ := List.getElem?_eq_some_iff.mp hi
  rw [h.ports] at hlt
  exact ⟨hlt, UInt8.toNat_ofNat_of_lt' (Nat.lt_trans hlt (UInt8.toNat_lt _))⟩

theorem WellFormed.vlan_place (h : c.WellFormed) {i : Nat} {entry : VlanEntry} (hi : c.vlans[i]? = some entry) :
    i < c.chip.numVlans.toNat ∧ (UInt16.ofNat i).toNat = i := by
  obtain ⟨hlt, -⟩ := List.getElem?_eq_some_iff.mp hi
  rw [h.vlans] at hlt
  exact ⟨hlt, UInt16.toNat_ofNat_of_lt' (Nat.lt_trans hlt (UInt16.toNat_lt _))⟩

theorem vlanPorts_of_lt {index : UInt16} (hindex : index < c.chip.numVlans) :
    c.vlanPorts index = .ok (c.members (c.vlan index)) := by
  rw [vlanPorts, checkVlanIndex, if_pos hindex]
  rfl

/-! ### Masks and lists of members -/

/-- Two sets of ports stand for a list of members: one for all of them, one for those that send untagged. -/
def Lists (members untagged : PortMask) (list : List VlanPort) : Prop :=
  ∀ port, (members.getLsbD port = true ↔ ∃ m ∈ list, m.port.toNat = port) ∧
    (untagged.getLsbD port = true ↔ ∃ m ∈ list, m.port.toNat = port ∧ m.tagged = false)

theorem getLsbD_maskWhere {α : Type} (p : α → Bool) (items : List α) (i : Nat) :
    (maskWhere p items).getLsbD i = (decide (i < 16) && (items[i]?).any p) := by
  have hfold : ∀ (items : List α) (k : Nat) (mask : PortMask),
      ((items.zipIdx k).foldl (fun mask x => if p x.1 then mask ||| .single x.2 else mask) mask).getLsbD i =
        (mask.getLsbD i || (decide (i < 16) && (decide (k ≤ i) && (items[i - k]?).any p))) := by
    intro items
    induction items with
    | nil => simp
    | cons x items ih =>
      intro k mask
      have hbit : (if p x then mask ||| .single k else mask).getLsbD i =
          (mask.getLsbD i || (decide (i < 16) && (k == i && p x))) := by
        split
        case isTrue hp => rw [BitVec.getLsbD_or, getLsbD_single, hp, Bool.and_true]
        case isFalse hp => simp [hp]
      rw [List.zipIdx_cons, List.foldl_cons, ih, hbit, Bool.or_assoc, ← Bool.and_or_distrib_left]
      rcases Nat.lt_trichotomy i k with hik | rfl | hik
      · simp [Nat.not_le.mpr hik, Nat.not_le.mpr (Nat.lt_succ_of_lt hik), Nat.ne_of_gt hik]
      · have hlater : decide (i + 1 ≤ i) = false := decide_eq_false (Nat.not_succ_le_self i)
        rw [hlater]
        simp
      · have hne : (k == i) = false := beq_eq_false_iff_ne.mpr (Nat.ne_of_lt hik)
        have hnext : i - k = (i - (k + 1)) + 1 := by omega
        rw [hnext, List.getElem?_cons_succ, hne]
        simp [Nat.le_of_lt hik, Nat.succ_le_of_lt hik]
  exact (hfold items 0 0).trans (by simp)

theorem mem_members {entry : VlanEntry} {m : VlanPort} :
    m ∈ c.members entry ↔ entry.valid = true ∧ ∃ i p, c.ports[i]? = some p ∧ entry.members.getLsbD i = true ∧
      m = ⟨UInt8.ofNat i, p.tagged⟩ := by
  rw [members]
  split
  case isTrue hvalid =>
    rw [List.mem_filterMap]
    constructor
    · rintro ⟨⟨p, i⟩, hi, hm⟩
      have hm : (if entry.members.getLsbD i then some ⟨UInt8.ofNat i, p.tagged⟩ else none) = some m := hm
      split at hm
      case isTrue hbit =>
        exact ⟨hvalid, i, p, List.mem_zipIdx_iff_getElem?.mp hi, hbit, (Option.some.inj hm).symm⟩
      case isFalse => cases hm
    · rintro ⟨-, i, p, hi, hbit, rfl⟩
      exact ⟨(p, i), List.mem_zipIdx_iff_getElem?.mpr hi, if_pos hbit⟩
  case isFalse hvalid => exact ⟨fun hm => absurd hm List.not_mem_nil, fun hm => absurd hm.1 hvalid⟩

/-- The masks of an entry of the table stand for its members. -/
theorem WellFormed.lists (h : c.WellFormed) {entry : VlanEntry} (he : entry ∈ c.vlans) :
    Lists entry.members (c.untagMask &&& entry.members) (c.members entry) := by
  have hlisted : ∀ {port : Nat}, entry.members.getLsbD port = true →
      ∃ p, c.ports[port]? = some p ∧ ⟨UInt8.ofNat port, p.tagged⟩ ∈ c.members entry := by
    intro port hbit
    have hlt : port < c.ports.length := by
      rw [h.ports]
      refine Nat.lt_of_not_le fun hge => ?_
      rw [h.members entry he port hge] at hbit
      cases hbit
    have hvalid : entry.valid = true := by
      rw [h.valid entry he]
      refine bne_iff_ne.mpr fun hz => ?_
      rw [hz] at hbit
      cases (BitVec.getLsbD_zero (w := 16) (i := port)).symm.trans hbit
    exact ⟨c.ports[port], List.getElem?_eq_getElem hlt,
      mem_members.mpr ⟨hvalid, port, _, List.getElem?_eq_getElem hlt, hbit, rfl⟩⟩
  intro port
  constructor
  · constructor
    · intro hbit
      obtain ⟨p, hp, hm⟩ := hlisted hbit
      exact ⟨_, hm, (h.port_place hp).2⟩
    · rintro ⟨m, hm, rfl⟩
      obtain ⟨-, i, p, hi, hbit, rfl⟩ := mem_members.mp hm
      rwa [(h.port_place hi).2]
  · rw [BitVec.getLsbD_and, Bool.and_eq_true, untagMask, getLsbD_maskWhere]
    constructor
    · rintro ⟨huntag, hbit⟩
      obtain ⟨p, hp, hm⟩ := hlisted hbit
      refine ⟨_, hm, (h.port_place hp).2, ?_⟩
      rw [hp] at huntag
      simpa using (Bool.and_eq_true_iff.mp huntag).2
    · rintro ⟨m, hm, rfl, htag⟩
      obtain ⟨-, i, p, hi, hbit, rfl⟩ := mem_members.mp hm
      obtain ⟨hlt, hplace⟩ := h.port_place hi
      have hports := c.chip.numPorts_le
      have htag : p.tagged = false := htag
      rw [hplace]
      refine ⟨?_, hbit⟩
      rw [hi, Option.any_some, decide_eq_true (by omega), htag]
      rfl

end

end Config

end EtherSwitch
