import EtherSwitch.Proofs.Guarded
import EtherSwitch.Proofs.Refusals
import EtherSwitch.Register.Bank
import Mathlib.Data.List.Basic

/-! No operation of a switch leaves the range of a step, whatever its arguments and whatever the registers
    answer. On a configuration that operations have reached, every guarded operation makes the accesses of the
    plain one and gives its answer (`Guarded.perform_exact`). -/

namespace EtherSwitch.Guarded
variable {α β : Type} {m : Type → Type} [Monad m]

/-- The guarded computation never stops short, and is the plain one otherwise. -/
def Exact (q : OptionT m α) (p : m α) : Prop := q.run = some <$> p

section
variable [LawfulMonad m]

theorem exact_run (p : m α) : Exact (run p) p := (OptionT.run_lift p).trans (map_eq_pure_bind some p).symm

theorem exact_pure (a : α) : Exact (pure a : OptionT m α) (pure a) := (map_pure some a).symm

theorem Exact.bind {q : OptionT m α} {p : m α} {f : α → OptionT m β} {g : α → m β} (h : Exact q p)
    (hf : ∀ a, Exact (f a) (g a)) :
    Exact (q >>= f) (p >>= g) := by
  rw [Exact, OptionT.run_bind, show q.run = some <$> p from h, Option.elimM, bind_map_left, map_bind]
  exact bind_congr hf

/-- A step in range is passed. -/
theorem Exact.step {o : Option α} {a : α} {f : α → OptionT m β} {p : m β} (ho : o = some a)
    (h : Exact (f a) p) :
    Exact (Guarded.step o >>= f) p := by
  subst ho
  exact (pure_bind _ _).trans h

theorem exact_step {o : Option α} {a : α} (ho : o = some a) :
    Exact (Guarded.step o : OptionT m α) (pure a) := by
  subst ho
  exact (map_pure some a).symm

theorem Exact.forM {xs : List α} {f : α → OptionT m PUnit} {g : α → m PUnit} (h : ∀ x ∈ xs, Exact (f x) (g x)) :
    Exact (xs.forM f) (xs.forM g) := by
  induction xs with
  | nil => exact exact_pure _
  | cons x xs ih =>
    exact (h x List.mem_cons_self).bind fun _ => ih fun y hy => h y (List.mem_cons_of_mem x hy)

theorem Exact.mapM {xs : List α} {f : α → OptionT m β} {g : α → m β} (h : ∀ x ∈ xs, Exact (f x) (g x)) :
    Exact (xs.mapM f) (xs.mapM g) := by
  induction xs with
  | nil =>
    rw [List.mapM_nil, List.mapM_nil]
    exact exact_pure _
  | cons x xs ih =>
    rw [List.mapM_cons, List.mapM_cons]
    exact (h x List.mem_cons_self).bind fun _ =>
      (ih fun y hy => h y (List.mem_cons_of_mem x hy)).bind fun _ => exact_pure _

end

/-- After a check that succeeds what it says can be relied on; if it fails, both
    computations end with its error. -/
theorem Exact.check {x : Except Error α} {f : α → OptionT (Except Error) β} {g : α → Except Error β}
    (h : ∀ a, x = .ok a → Exact (f a) (g a)) : Exact (run x >>= f) (x >>= g) := by
  cases x with
  | error e => rfl
  | ok a => exact h a rfl

theorem Exact.checkScript {x : Except Error α} {f : α → OptionT Script β} {g : α → Script β}
    (h : ∀ a, x = .ok a → Exact (f a) (g a)) : Exact (toScript (run x) >>= f) ((liftM x : Script α) >>= g) := by
  cases x with
  | error e => rfl
  | ok a => exact h a rfl

theorem Exact.toScript {q : OptionT (Except Error) α} {x : Except Error α} (h : Exact q x) :
    Exact (Guarded.toScript q) (liftM x : Script α) := by
  rw [Exact, Guarded.toScript, show q.run = some <$> x from h]
  cases x <;> rfl

/-! ### Steps -/

theorem modifyAt_of_lt {xs : List α} {i : Nat} (h : i < xs.length) (f : α → α) :
    modifyAt xs i f = some (xs.modify i f) := if_pos h

theorem shiftLeft_of_lt {w n : Nat} (h : n < w) (x : BitVec w) : shiftLeft x n = some (x <<< n) := if_pos h

theorem shiftRight_of_lt {w n : Nat} (h : n < w) (x : BitVec w) : shiftRight x n = some (x >>> n) := if_pos h

theorem narrow_of_lt {w : Nat} {x : BitVec w} (h : x.toNat < 256) : narrow 8 x = some (x.setWidth 8) :=
  if_pos ((BitVec.toNat_setWidth 8 x).trans (Nat.mod_eq_of_lt h))

theorem byte_of_lt {n : Nat} (h : n < 256) : byte n = some (UInt8.ofNat n) := if_pos h

theorem word_of_lt {n : Nat} (h : n < 65536) : word n = some (UInt16.ofNat n) := if_pos h

theorem foldlM_eq_some {xs : List β} {f : α → β → Option α} {g : α → β → α}
    (h : ∀ a, ∀ x ∈ xs, f a x = some (g a x)) (a : α) :
    xs.foldlM f a = some (xs.foldl g a) := by
  induction xs generalizing a with
  | nil => rfl
  | cons x xs ih =>
    rw [List.foldlM_cons, h a x List.mem_cons_self]
    exact ih (fun b y hy => h b y (List.mem_cons_of_mem x hy)) _

theorem mapM_eq_some {xs : List α} {f : α → Option β} {g : α → β} (h : ∀ x ∈ xs, f x = some (g x)) :
    xs.mapM f = some (xs.map g) := by
  induction xs with
  | nil => rfl
  | cons x xs ih =>
    rw [List.mapM_cons, h x List.mem_cons_self, ih fun y hy => h y (List.mem_cons_of_mem x hy)]
    rfl

/-- A bit is set if it is in common with the mask of that bit. -/
theorem and_bit_ne_zero {w : Nat} (x : BitVec w) (i : Nat) : x &&& 1#w <<< i ≠ 0 ↔ x.getLsbD i = true := by
  rw [← BitVec.twoPow_eq]
  constructor
  · intro h
    by_contra hbit
    exact h (by rw [BitVec.and_twoPow, if_neg hbit]; rfl)
  · intro hbit
    refine and_ne_zero_of_getLsbD i hbit ?_
    rw [BitVec.getLsbD_twoPow, decide_eq_true (BitVec.lt_of_getLsbD hbit), decide_eq_true rfl]
    rfl

/-! ### What checks say -/

theorem lt_of_checkPort {c : Config} {port : UInt8} {u : Unit} (h : c.checkPort port = .ok u) :
    port < c.chip.numPorts := by
  rw [Config.checkPort] at h
  split at h
  case isTrue hlt => exact hlt
  case isFalse => cases h

theorem lt_of_checkVlanIndex {chip : Chip} {index : UInt16} {u : Unit}
    (h : Config.checkVlanIndex chip index = .ok u) :
    index < chip.numVlans := by
  rw [Config.checkVlanIndex] at h
  split at h
  case isTrue hlt => exact hlt
  case isFalse => cases h

theorem lt_of_checkLinkPort {chip : Chip} {port : UInt8} {u : Unit} (h : checkLinkPort chip port = .ok u) :
    port.toNat < 16 := by
  rw [checkLinkPort] at h
  split at h
  case isTrue => cases h
  case isFalse hport =>
    have hlt := UInt8.lt_iff_toNat_lt.mp (UInt8.not_le.mp hport)
    have := chip.numPorts_le
    omega

/-! ### The configuration -/

section
variable {c : Config} (h : c.WellFormed)
include h

theorem port_lt {p : PortConfig} {i : Nat} (hi : (p, i) ∈ c.ports.zipIdx) : i < 9 :=
  Nat.lt_of_lt_of_le (h.port_place (List.mem_zipIdx_iff_getElem?.mp hi)).1 c.chip.numPorts_le

theorem untagMask_eq : untagMask c = some c.untagMask := by
  refine foldlM_eq_some (fun mask x hx => ?_) 0
  have hlt := port_lt h hx
  cases htagged : x.1.tagged
  · simp [htagged, shiftLeft_of_lt (show x.2 < 16 by omega), PortMask.single]
  · simp [htagged]

theorem members_eq (entry : VlanEntry) : members c entry = some (c.members entry) := by
  rw [members, Config.members]
  cases hvalid : entry.valid
  · rfl
  · have hmember : ∀ x ∈ c.ports.zipIdx, member? entry x =
        some (if entry.members.getLsbD x.2 then some ⟨UInt8.ofNat x.2, x.1.tagged⟩ else none) := by
      intro x hx
      have hlt := port_lt h hx
      have hplace : (UInt8.ofNat x.2).toNat = x.2 := (h.port_place (List.mem_zipIdx_iff_getElem?.mp hx)).2
      rw [member?, byte_of_lt (by omega), Option.bind_eq_bind, Option.bind_some, hplace,
        shiftLeft_of_lt (by omega)]
      exact congrArg some (ite_congr (propext (and_bit_ne_zero _ _)) (fun _ => rfl) fun _ => rfl)
    rw [if_pos rfl, if_pos rfl, mapM_eq_some hmember]
    exact congrArg some (List.filterMap_map ..)

omit h in
theorem exact_setVlanBase (base : UInt16) : Exact (setVlanBase c base) (c.setVlanBase base) := by
  rw [setVlanBase, Config.setVlanBase]
  split
  · rfl
  · split
    · rfl
    · exact .step (show (minus 16 1).bind word = some (16 - 1) by decide) (exact_pure _)

theorem exact_portPvid (port : UInt8) : Exact (portPvid c port) (c.portPvid port) := by
  refine .check fun _ hport => ?_
  rw [Config.port, List.getElem?_eq_getElem (h.lt_ports (lt_of_checkPort hport))]
  exact .step rfl (exact_pure _)

theorem exact_setPortPvid (port : UInt8) (vid : UInt16) :
    Exact (setPortPvid c port vid) (c.setPortPvid port vid) := by
  refine .check fun _ hport => ?_
  by_cases hvid : c.chip.maxVid < vid
  · rw [if_pos hvid, if_pos hvid]
    rfl
  · rw [if_neg hvid, if_neg hvid]
    exact .step (modifyAt_of_lt (h.lt_ports (lt_of_checkPort hport)) _) (exact_pure _)

theorem exact_vlanPorts (index : UInt16) : Exact (vlanPorts c index) (c.vlanPorts index) := by
  refine .check fun _ hindex => ?_
  rw [Config.vlan, List.getElem?_eq_getElem (h.lt_vlans (lt_of_checkVlanIndex hindex))]
  exact .step rfl (exact_step (members_eq h _))

omit h in
/-- Ports of the table can all join an entry. -/
theorem foldlM_join_eq (index : UInt16) {list : List VlanPort} {ports : List PortConfig} (mask : PortMask)
    (hports : ports.length ≤ 16) (hlist : ∀ m ∈ list, m.port.toNat < ports.length) :
    list.foldlM (join index) (mask, ports) =
      some (list.foldl (fun mask m => mask ||| .single m.port.toNat) mask, Config.joined index list ports) := by
  induction list generalizing mask ports with
  | nil => rfl
  | cons m list ih =>
    have hlt := hlist m List.mem_cons_self
    have hlength : (ports.modify m.port.toNat (.join index m.tagged)).length = ports.length :=
      List.length_modify _ _ _
    have hjoin : join index (mask, ports) m =
        some (mask ||| .single m.port.toNat, ports.modify m.port.toNat (.join index m.tagged)) := by
      rw [join, shiftLeft_of_lt (by omega), modifyAt_of_lt hlt]
      rfl
    rw [List.foldlM_cons, hjoin]
    exact ih _ (hlength.symm ▸ hports) fun other hother =>
      hlength.symm ▸ hlist other (List.mem_cons_of_mem m hother)

theorem exact_setVlanPorts (index : UInt16) (list : List VlanPort) :
    Exact (setVlanPorts c index list) (c.setVlanPorts index list) := by
  refine .check fun _ hindex => ?_
  by_cases hreserved : index = 0 ∧ c.chip.family = .gigabit
  · rw [if_pos hreserved, if_pos hreserved]
    rfl
  · rw [if_neg hreserved, if_neg hreserved]
    refine .check fun _ hlist => ?_
    have hports : c.ports.length ≤ 16 := h.ports ▸ Nat.le_trans c.chip.numPorts_le (by decide)
    have hjoined := foldlM_join_eq index 0 hports fun m hm => h.lt_ports (Config.ports_of_checks hlist m hm)
    refine .step hjoined (.step (modifyAt_of_lt (h.lt_vlans (lt_of_checkVlanIndex hindex)) _) ?_)
    rw [← List.set_eq_modify]
    exact exact_pure _

end

/-! ### Default tags -/

theorem defaultTag_of_lt {port : UInt8} (h : port.toNat < 9) :
    defaultTag port = some (Layout.defaultTag port) := by
  have hlt : 0x10 + 2 * port.toNat < 256 := by omega
  have hoffset : UInt8.ofNat (0x10 + 2 * port.toNat) = 0x10 + 2 * port := by
    apply UInt8.toNat_inj.mp
    rw [UInt8.toNat_ofNat_of_lt' hlt, UInt8.toNat_add, UInt8.toNat_mul]
    show _ = (16 + 2 * port.toNat % 256) % 256
    omega
  rw [defaultTag, byte_of_lt hlt, hoffset]
  rfl

theorem exact_clearDefaultTags (chip : Chip) :
    Exact (clearDefaultTags chip) (EtherSwitch.clearDefaultTags chip) := by
  refine .forM fun port hport => ?_
  have hlt := UInt8.lt_iff_toNat_lt.mp (mem_portsBelow.mp hport)
  exact .step (defaultTag_of_lt (Nat.lt_of_lt_of_le hlt chip.numPorts_le)) (exact_run _)

theorem exact_setDefaultTags {c : Config} (h : c.WellFormed) {tag : PortConfig → Option UInt16}
    {plain : PortConfig → UInt16} (htag : ∀ p ∈ c.ports, tag p = some (plain p)) :
    Exact (setDefaultTags c.ports tag) (EtherSwitch.setDefaultTags c.ports plain) := by
  refine .forM fun ⟨p, i⟩ hp => ?_
  have hi := List.mem_zipIdx_iff_getElem?.mp hp
  have hlt := port_lt h hp
  refine .step (byte_of_lt (by omega)) ?_
  show Exact (if p.tagged then pure () else _) (if p.tagged then pure () else _)
  split
  · exact exact_pure _
  · exact .step (defaultTag_of_lt ((h.port_place hi).2.symm ▸ hlt))
      (.step (htag p (List.mem_of_getElem? hi)) (exact_run _))

/-! ### Status summaries -/

theorem statusBit_of_lt {port : UInt8} (h : port.toNat < 16) (summary : BitVec 16) :
    statusBit summary port = some (PortLink.statusBit summary port) := by
  have hbit : (summary >>> port.toNat &&& 1 != 0) = summary.getLsbD port.toNat := by
    rw [Bool.eq_iff_iff, bne_iff_ne]
    exact (and_bit_ne_zero _ 0).trans (by rw [BitVec.getLsbD_ushiftRight, Nat.add_zero])
  rw [statusBit, shiftRight_of_lt h]
  exact congrArg some hbit

theorem speedFieldFast_of_lt {port : UInt8} (h : port.toNat < 16) (summary : BitVec 16) :
    speedFieldFast summary port = some (PortLink.speedFieldFast summary port) := by
  have hlt : (summary >>> port.toNat &&& 1).toNat < 256 := by
    rw [BitVec.toNat_and]
    exact Nat.lt_of_le_of_lt Nat.and_le_right (by decide)
  rw [speedFieldFast, shiftRight_of_lt h, Option.bind_eq_bind, Option.bind_some, narrow_of_lt hlt,
    BitVec.setWidth_and]
  rfl

theorem speedFieldGigabit_of_lt {port : UInt8} (h : port.toNat < 16) (summary : BitVec 32) :
    speedFieldGigabit summary port = some (PortLink.speedFieldGigabit summary port) := by
  have hlt : (summary >>> (2 * port.toNat) &&& 3).toNat < 256 := by
    rw [BitVec.toNat_and]
    exact Nat.lt_of_le_of_lt Nat.and_le_right (by decide)
  rw [speedFieldGigabit, shiftRight_of_lt (by omega), Option.bind_eq_bind, Option.bind_some, narrow_of_lt hlt,
    BitVec.setWidth_and]
  rfl

theorem exact_decode {port : UInt8} (h : port.toNat < 16) (link : BitVec 16) (speed : BitVec 8)
    (duplex : BitVec 16) :
    Exact (decode port link speed duplex) (PortLink.decode port link speed duplex) := by
  refine .step (statusBit_of_lt h link) ?_
  rw [PortLink.decode]
  cases PortLink.statusBit link port with
  | false => exact exact_pure _
  | true =>
    rw [if_pos rfl, if_pos rfl]
    cases PortLink.speedOfField? speed with
    | none => exact exact_run _
    | some s => exact .step (statusBit_of_lt h duplex) (exact_pure _)

/-! ### The families -/

namespace FastEthernet

theorem exact_writeEntry (chip : Chip) (index : UInt16) (members untagged : PortMask) (vidHigh : BitVec 8) :
    Exact (writeEntry chip index members untagged vidHigh)
      (EtherSwitch.FastEthernet.writeEntry chip index members untagged vidHigh) := by
  refine .checkScript fun _ hindex => .bind (exact_run _) fun _ => ?_
  have hlt := UInt16.lt_iff_toNat_lt.mp (lt_of_checkVlanIndex hindex)
  exact .step (byte_of_lt (Nat.lt_trans hlt (show 16 < 256 by decide))) (exact_run _)

theorem vidHigh_eq {c : Config} (h : c.WellFormed) :
    vidHigh c.vlanBase = some (EtherSwitch.FastEthernet.vidHigh c.vlanBase) := by
  have hle : c.vlanBase.toNat ≤ 4095 := UInt16.le_iff_toNat_le.mp h.base_le
  have hlt : (c.vlanBase.toBitVec >>> 4).toNat < 256 := by
    rw [BitVec.toNat_ushiftRight, Nat.shiftRight_eq_div_pow]
    show c.vlanBase.toNat / 2 ^ 4 < 256
    omega
  rw [vidHigh, shiftRight_of_lt (by decide), Option.bind_eq_bind, Option.bind_some, narrow_of_lt hlt]
  rfl

theorem addVid_eq {c : Config} (h : c.WellFormed) (hfamily : c.chip.family = .fastEthernet) {p : PortConfig}
    (hp : p ∈ c.ports) :
    addVid p.pvid c.vlanBase = some (p.pvid + c.vlanBase) := by
  have hpvid : p.pvid.toNat ≤ 15 := by
    have hmax : c.chip.maxVid.toNat = 15 := by
      rw [Chip.maxVid, Chip.vidBits, hfamily]
      rfl
    exact hmax ▸ UInt16.le_iff_toNat_le.mp (h.pvid p hp)
  have hbase : c.vlanBase.toNat ≤ 4095 := UInt16.le_iff_toNat_le.mp h.base_le
  have hround := h.base
  refine if_pos (show _ ≤ 4095 from ?_)
  omega

theorem exact_apply {c : Config} (h : c.WellFormed) (hfamily : c.chip.family = .fastEthernet) :
    Exact (apply c.chip c) (EtherSwitch.FastEthernet.apply c.chip c) := by
  refine .bind (exact_run _) fun _ => ?_
  cases c.vlanEnabled with
  | true =>
    refine .step (untagMask_eq h) (.bind (exact_setDefaultTags h fun p hp => addVid_eq h hfamily hp) fun _ =>
      .step (vidHigh_eq h) (.forM fun ⟨entry, i⟩ hi => ?_))
    obtain ⟨hlt, -⟩ := h.vlan_place (List.mem_zipIdx_iff_getElem?.mp hi)
    exact .step (word_of_lt (Nat.lt_trans hlt (show 16 < 65536 by decide))) (exact_writeEntry _ _ _ _ _)
  | false =>
    have hcpu : (minus c.chip.numPorts.toNat 1).bind byte = some c.chip.cpuPort := by cases c.chip <;> decide
    refine .bind (.forM fun i hi => ?_) fun _ => .bind (exact_writeEntry _ _ _ _ _) fun _ =>
      .step hcpu (.bind (exact_run _) fun _ => exact_clearDefaultTags _)
    exact .step (word_of_lt (Nat.lt_trans (List.mem_range.mp hi) (show 16 < 65536 by decide)))
      (exact_writeEntry _ _ _ _ _)

theorem exact_portLink (chip : Chip) (port : UInt8) :
    Exact (portLink chip port) (EtherSwitch.FastEthernet.portLink chip port) :=
  .checkScript fun _ hport =>
    .bind (exact_run _) fun _ => .bind (exact_run _) fun speed => .bind (exact_run _) fun _ =>
      .step (speedFieldFast_of_lt (lt_of_checkLinkPort hport) speed)
        (.toScript (exact_decode (lt_of_checkLinkPort hport) _ _ _))

end FastEthernet

namespace Gigabit

theorem exact_apply {c : Config} (h : c.WellFormed) :
    Exact (apply c.chip c) (EtherSwitch.Gigabit.apply c.chip c) := by
  refine .bind (exact_run _) fun _ => ?_
  cases c.vlanEnabled with
  | true =>
    refine .step (untagMask_eq h) (.bind (exact_setDefaultTags h fun _ _ => rfl) fun _ =>
      .forM fun ⟨entry, i⟩ hi => ?_)
    obtain ⟨hlt, -⟩ := h.vlan_place (List.mem_zipIdx_iff_getElem?.mp (List.mem_of_mem_drop hi))
    exact .step (word_of_lt (Nat.lt_trans hlt (show 16 < 65536 by decide))) (exact_run _)
  | false =>
    refine .bind (.forM fun i hi => ?_) fun _ => .bind (exact_run _) fun _ => exact_clearDefaultTags _
    have hlt := List.mem_range.mp (List.mem_of_mem_drop hi)
    exact .step (word_of_lt (Nat.lt_trans hlt (show 16 < 65536 by decide))) (exact_run _)

theorem exact_portLink (chip : Chip) (port : UInt8) :
    Exact (portLink chip port) (EtherSwitch.Gigabit.portLink chip port) :=
  .checkScript fun _ hport =>
    .bind (exact_run _) fun _ => .bind (exact_run _) fun speed => .bind (exact_run _) fun _ =>
      .step (speedFieldGigabit_of_lt (lt_of_checkLinkPort hport) speed)
        (.toScript (exact_decode (lt_of_checkLinkPort hport) _ _ _))

end Gigabit

/-! ### The operations -/

theorem exact_applyConfig {c : Config} (h : c.WellFormed) : Exact (applyConfig c) (Switch.applyConfig c) := by
  rw [applyConfig, Switch.applyConfig]
  cases hfamily : c.chip.family with
  | fastEthernet => exact FastEthernet.exact_apply h hfamily
  | gigabit => exact Gigabit.exact_apply h

theorem exact_portLink (c : Config) (port : UInt8) : Exact (portLink c port) (Switch.portLink c port) := by
  rw [portLink, Switch.portLink]
  cases c.chip.family with
  | fastEthernet => exact FastEthernet.exact_portLink _ _
  | gigabit => exact Gigabit.exact_portLink _ _

section
variable {c : Config}

/-- What a program of the switch answers, if it never stops short. -/
def whole (r : Except Error α × Config) : Except Error (Option α) × Config := (r.1.map some, r.2)

theorem look_eq {f : Config → OptionT (Except Error) α} {g : Config → Except Error α} (h : Exact (f c) (g c)) :
    (look f).run.run c = whole <$> (Switch.look g).run.run c := by
  rw [look, Switch.look_eq_done, Switch.look_eq_done, show (f c).run = some <$> g c from h]
  rfl

theorem change_eq {f : Config → OptionT (Except Error) Config} {g : Config → Except Error Config}
    (h : Exact (f c) (g c)) :
    (change f).run.run c = whole <$> (Switch.change g).run.run c := by
  have hrun : (change f).run.run c = (change fun _ => OptionT.mk (some <$> g c)).run.run c := by
    show (change fun _ => OptionT.mk (f c).run).run.run c = _
    rw [show (f c).run = some <$> g c from h]
  rw [hrun, Switch.change_eq_done]
  cases g c <;> rfl

theorem script_eq {f : Config → OptionT Script α} {g : Config → Script α} (h : Exact (f c) (g c)) :
    (script f).run.run c = whole <$> (Switch.script g).run.run c := by
  have hrun : (f c).run.run = Except.map some <$> (g c).run := by
    rw [show (f c).run = some <$> g c from h, ExceptT.run_map]
  show ((f c).run.run >>= fun result => pure (result, c)) =
    whole <$> ((g c).run >>= fun result => pure (result, c))
  rw [hrun, bind_map_left, map_bind]
  rfl

theorem perform_eq (hc : c.WellFormed) (op : Switch.Operation) :
    (perform op).run.run c = whole <$> (Switch.layer op).run c := by
  have hplain : ∀ {β : Type} (t : Switch.Task β), (some <$> t).run.run c = whole <$> t.run.run c := fun t => by
    rw [ExceptT.run_map, StateT.run_map]
    rfl
  cases op with
  | setVlanBase base => exact change_eq (exact_setVlanBase base)
  | portPvid port => exact look_eq (exact_portPvid hc port)
  | setPortPvid port vid => exact change_eq (exact_setPortPvid hc port vid)
  | vlanPorts index => exact look_eq (exact_vlanPorts hc index)
  | setVlanPorts index members => exact change_eq (exact_setVlanPorts hc index members)
  | applyConfig => exact script_eq (exact_applyConfig hc)
  | resetSwitch =>
    have hclear : c.clear.WellFormed := .initial _
    have hscript :
        Exact (resetScript c.clear) (do c.clear.chip.family.reset c.clear.chip; Switch.applyConfig c.clear) :=
      .bind (exact_run _) fun _ => exact_applyConfig hclear
    exact script_eq (c := c.clear) (f := resetScript)
      (g := fun c => do c.chip.family.reset c.chip; Switch.applyConfig c) hscript
  | portLink port => exact script_eq (exact_portLink c port)
  | portLinks => exact script_eq (.mapM fun port _ => exact_portLink c port)
  | config => exact hplain _
  | setVlanEnabled on => exact hplain _
  | setManaged on => exact hplain _
  | readRegister a => exact hplain _
  | writeRegister a value => exact hplain _

/-- Over every device, no operation on a configuration that operations have reached is stopped by a guard: the
    guarded one gives the answer of the plain one and leaves the same configuration and the same registers. -/
theorem perform_in_range {σ : Type} (hc : c.Reachable) (op : Switch.Operation) (d : Device Registers σ)
    (s : σ) :
    Program.run d ((perform op).run.run c) s =
      (((Switch.layer.device d op (c, s)).1.map some, (Switch.layer.device d op (c, s)).2.1),
        (Switch.layer.device d op (c, s)).2.2) := by
  rw [perform_eq hc.wellFormed, map_eq_pure_bind, Program.run_bind]
  rfl

/-- The largest VLAN id: the last VLAN of the table at the largest base, and a port that has it as its own. -/
def largest : Config :=
  (Switch.Operation.setVlanEnabled true).after ((Switch.Operation.setPortPvid 5 15).after
    ((Switch.Operation.setVlanBase 0xfff).after (.initial ⟨.bcm5325E, 0⟩)))

theorem perform_in_range_largest :
    largest.Reachable ∧ (largest.port 5).pvid + largest.vlanBase = 0xfff ∧
      (Program.run Bank.device ((perform .applyConfig).run.run largest) {}).1 = (.ok (some ()), largest) := by
  have hc : largest.Reachable := (((Config.Reachable.initial _).after _).after _).after _
  refine ⟨hc, by decide, ?_⟩
  rw [perform_in_range hc]
  rfl

/-- The guards do stop a configuration that no operation reaches: a table that lacks a port
    of the chip is noticed. -/
theorem portPvid_stops {port : UInt8} (hport : port < c.chip.numPorts) (hshort : c.ports.length ≤ port.toNat) :
    (perform (.portPvid port)).run.run c = .done (.ok none, c) := by
  have hnone : (portPvid c port).run = .ok none := by
    rw [portPvid, Config.checkPort, if_pos hport, List.getElem?_eq_none hshort]
    rfl
  show (look (portPvid · port)).run.run c = _
  rw [look, Switch.look_eq_done, hnone]

end

end EtherSwitch.Guarded
