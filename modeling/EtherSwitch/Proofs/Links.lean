import EtherSwitch.Proofs.Configuration
import EtherSwitch.Proofs.Store
import EtherSwitch.Register.Bank

/-! What the link operations make of the status registers. They read the link of a port off its own
    bits in three summaries and off nothing else, whatever device holds these
    (`Switch.portLink_reads`). The speed field of the gigabit family has one encoding without a
    meaning, which only matters while the port is up. -/

namespace EtherSwitch
open Script

/-! ### Status fields -/

/-- How a speed field says the speed. -/
def Speed.code : Speed → BitVec 8
  | mbps10 => 0
  | mbps100 => 1
  | mbps1000 => 2

/-- Where the family keeps the duplex of its ports. -/
def Family.duplexStatus : Family → Location
  | .fastEthernet => Layout.duplexFast
  | .gigabit => Layout.duplexGigabit

/-- The speed field of a port in the given contents of the registers: one bit on fast Ethernet
    chips, two bits on gigabit chips. -/
def Family.speedField (family : Family) (registers : Location → BitVec 64) (port : UInt8) : BitVec 8 :=
  match family with
  | .fastEthernet => ((registers Layout.speedStatus).extractLsb' port.toNat 1).setWidth 8
  | .gigabit => ((registers Layout.speedStatus).extractLsb' (2 * port.toNat) 2).setWidth 8

namespace PortLink
variable {port : UInt8}

theorem statusBit_setWidth (h : port.toNat < 16) (value : BitVec 64) :
    statusBit (value.setWidth 16) port = value.getLsbD port.toNat := by
  rw [statusBit, BitVec.getLsbD_setWidth, decide_eq_true h, Bool.true_and]

theorem speedFieldFast_setWidth (h : port.toNat < 16) (value : BitVec 64) :
    speedFieldFast (value.setWidth 16) port = (value.extractLsb' port.toNat 1).setWidth 8 := by
  apply BitVec.eq_of_getLsbD_eq
  intro i hi
  have hone : (1 : BitVec 8).getLsbD i = decide (i = 0) := by
    revert i
    decide
  rw [speedFieldFast, BitVec.getLsbD_and, hone]
  by_cases hzero : i = 0
  · simp [hzero, h]
  · simp [hzero]

theorem speedFieldGigabit_setWidth (h : port.toNat < 16) (value : BitVec 64) :
    speedFieldGigabit (value.setWidth 32) port = (value.extractLsb' (2 * port.toNat) 2).setWidth 8 := by
  apply BitVec.eq_of_getLsbD_eq
  intro i hi
  have hthree : (3 : BitVec 8).getLsbD i = decide (i < 2) := by
    revert i
    decide
  rw [speedFieldGigabit, BitVec.getLsbD_and, hthree]
  by_cases hlow : i < 2
  · simp [hlow, hi, show 2 * port.toNat + i < 32 by omega]
  · simp [hlow]

theorem speedOfField?_code (speed : Speed) : speedOfField? speed.code = some speed := by cases speed <;> rfl

/-- Every value of a speed field means a speed, but for one of the gigabit family. -/
theorem speedOfField?_eq_none_iff {family : Family} {registers : Location → BitVec 64} :
    speedOfField? (family.speedField registers port) = none ↔ family = .gigabit ∧
      family.speedField registers port = 3 := by
  cases family with
  | fastEthernet =>
    rw [Family.speedField]
    generalize (registers Layout.speedStatus).extractLsb' port.toNat 1 = field
    revert field
    decide
  | gigabit =>
    rw [Family.speedField]
    generalize (registers Layout.speedStatus).extractLsb' (2 * port.toNat) 2 = field
    revert field
    decide

end PortLink

/-- The link of a port by the contents of the registers. -/
def Family.linkOf (family : Family) (registers : Location → BitVec 64) (port : UInt8) : Except Error PortLink :=
  PortLink.decode port ((registers Layout.linkStatus).setWidth 16) (family.speedField registers port)
    ((registers family.duplexStatus).setWidth 16)

/-- Two contents of the registers have the same bits for a port. -/
structure Family.SameLink (family : Family) (registers registers' : Location → BitVec 64)
    (port : UInt8) : Prop where
  link : (registers' Layout.linkStatus).getLsbD port.toNat = (registers Layout.linkStatus).getLsbD port.toNat
  speed : family.speedField registers' port = family.speedField registers port
  duplex : (registers' family.duplexStatus).getLsbD port.toNat =
    (registers family.duplexStatus).getLsbD port.toNat

/-- An answer is what the bits of a port say. -/
structure Family.LinkRead (family : Family) (registers : Location → BitVec 64) (port : UInt8)
    (answer : Except Error PortLink) : Prop where
  down : (registers Layout.linkStatus).getLsbD port.toNat = false → answer = .ok ⟨port, false, .mbps10, .half⟩
  up : (registers Layout.linkStatus).getLsbD port.toNat = true →
    ∀ speed : Speed, family.speedField registers port = speed.code →
      answer =
        .ok ⟨port, true, speed, if (registers family.duplexStatus).getLsbD port.toNat then .full else .half⟩
  fails : ∀ err, answer = .error err ↔ err = .invalidSpeed port 3 ∧
    (registers Layout.linkStatus).getLsbD port.toNat = true ∧ family = .gigabit ∧
      family.speedField registers port = 3

namespace Family
variable {family : Family} {registers registers' : Location → BitVec 64} {port : UInt8}

theorem linkOf_eq (h : port.toNat < 16) :
    family.linkOf registers port =
      if (registers Layout.linkStatus).getLsbD port.toNat then
        match PortLink.speedOfField? (family.speedField registers port) with
        | some speed =>
          .ok ⟨port, true, speed, if (registers family.duplexStatus).getLsbD port.toNat then .full else .half⟩
        | none => .error (.invalidSpeed port (family.speedField registers port))
      else .ok (PortLink.down port) := by
  rw [← PortLink.statusBit_setWidth h (registers Layout.linkStatus),
    ← PortLink.statusBit_setWidth h (registers family.duplexStatus)]
  rfl

theorem linkRead_linkOf (h : port.toNat < 16) :
    family.LinkRead registers port (family.linkOf registers port) where
  down hdown := by
    rw [linkOf_eq h, hdown]
    rfl
  up hup speed hspeed := by
    rw [linkOf_eq h, hup, hspeed, PortLink.speedOfField?_code]
    rfl
  fails err := by
    rw [linkOf_eq h]
    cases hup : (registers Layout.linkStatus).getLsbD port.toNat with
    | false => exact iff_of_false nofun fun h => nomatch h.2.1
    | true =>
      cases hspeed : PortLink.speedOfField? (family.speedField registers port) with
      | some speed =>
        refine iff_of_false nofun ?_
        rintro ⟨-, -, hinvalid⟩
        rw [PortLink.speedOfField?_eq_none_iff.mpr hinvalid] at hspeed
        cases hspeed
      | none =>
        obtain ⟨hfamily, hfield⟩ := PortLink.speedOfField?_eq_none_iff.mp hspeed
        rw [if_pos rfl, hfield]
        refine ⟨fun h => ⟨(Except.error.inj h).symm, rfl, hfamily, rfl⟩, ?_⟩
        rintro ⟨rfl, -⟩
        rfl

/-- The bits of other ports do not matter. -/
theorem SameLink.linkOf_eq (hsame : family.SameLink registers registers' port) (h : port.toNat < 16) :
    family.linkOf registers' port = family.linkOf registers port := by
  rw [Family.linkOf_eq h, Family.linkOf_eq h, hsame.link, hsame.speed, hsame.duplex]

end Family

/-! ### Reading -/

/-- In the states `K` the device answers reads of the status registers by `registers`, and
    stays in such states. -/
def Tells {σ : Type} (d : Device Registers σ) (K : σ → Prop) (registers : Location → BitVec 64) : Prop :=
  ∀ l ∈ Layout.statusRegisters, ∀ (w : Width) (s : σ), K s →
    ∃ t, K t ∧ d (.read ⟨l, w⟩) s = (.ok (w.truncate (registers l)), t)

/-- A bank tells what it holds. -/
theorem tells_bank {b : Bank} (h : ∀ l ∈ Layout.statusRegisters, b.queues l = []) :
    Tells Bank.device (· = b) b.values := by
  rintro l hl w s rfl
  refine ⟨s, rfl, ?_⟩
  simp only [Bank.device, h l hl]

/-! ### Walks that may fail -/

section
variable {α β ε : Type}

theorem mapM_eq_ok_iff {g : α → Except ε β} {xs : List α} {ys : List β} :
    xs.mapM g = .ok ys ↔ xs.map g = ys.map .ok := by
  induction xs generalizing ys with
  | nil => cases ys <;> simp [pure, Except.pure]
  | cons x xs ih =>
    rw [List.mapM_cons, List.map_cons]
    cases hx : g x with
    | error err => cases ys <;> simp [bind, Except.bind]
    | ok y =>
      cases hxs : xs.mapM g with
      | error err =>
        have hnone : ∀ ys : List β, xs.map g ≠ ys.map Except.ok := fun ys h => by
          cases hxs.symm.trans (ih.mpr h)
        cases ys <;> simp [bind, Except.bind, hnone]
      | ok zs => cases ys <;> simp [bind, Except.bind, pure, Except.pure, ← ih, hxs]

/-- A walk along ascending ports fails with the error of the lowest port that fails. -/
theorem mapM_eq_error_iff {g : UInt8 → Except ε β} {xs : List UInt8} (h : xs.Pairwise (· < ·)) {err : ε} :
    xs.mapM g = .error err ↔ ∃ x ∈ xs, g x = .error err ∧ ∀ y ∈ xs, y < x → ∃ v, g y = .ok v := by
  induction xs with
  | nil => simp [pure, Except.pure]
  | cons x xs ih =>
    obtain ⟨hx, hxs⟩ := List.pairwise_cons.mp h
    rw [List.mapM_cons]
    cases hfirst : g x with
    | error err' =>
      have hstops : (do let y ← Except.error err'; let ys ← xs.mapM g; pure (y :: ys)) = Except.error err ↔
          err' = err := by
        simp [bind, Except.bind]
      refine hstops.trans ⟨fun herr => ⟨x, .head _, hfirst.trans (congrArg _ herr), fun y hy hlt => ?_⟩,
        fun ⟨z, hz, hfails, hbefore⟩ => ?_⟩
      · rcases List.mem_cons.mp hy with rfl | hy
        · exact absurd hlt (UInt8.lt_irrefl y)
        · exact absurd hlt (UInt8.lt_asymm (hx y hy))
      · rcases List.mem_cons.mp hz with rfl | hz
        · exact Except.error.inj (hfirst.symm.trans hfails)
        · obtain ⟨v, hv⟩ := hbefore x (.head _) (hx z hz)
          cases hfirst.symm.trans hv
    | ok v =>
      have hrest : (do let ys ← xs.mapM g; pure (v :: ys)) = Except.error err ↔ xs.mapM g = .error err := by
        cases xs.mapM g <;> simp [bind, Except.bind, pure, Except.pure]
      refine hrest.trans
        ((ih hxs).trans ⟨fun ⟨z, hz, hfails, hbefore⟩ => ?_, fun ⟨z, hz, hfails, hbefore⟩ => ?_⟩)
      · refine ⟨z, .tail _ hz, hfails, fun y hy hlt => ?_⟩
        rcases List.mem_cons.mp hy with rfl | hy
        · exact ⟨v, hfirst⟩
        · exact hbefore y hy hlt
      · rcases List.mem_cons.mp hz with rfl | hz
        · cases hfirst.symm.trans hfails
        · exact ⟨z, hz, hfails, fun y hy hlt => hbefore y (.tail _ hy) hlt⟩

end

namespace Switch

section
variable {σ : Type} {d : Device Registers σ} {K : σ → Prop} {registers : Location → BitVec 64} {s : σ}
    {l : Location}

theorem runOn_status16 (hd : Tells d K registers) (hl : l ∈ Layout.statusRegisters) (hs : K s) :
    ∃ t, K t ∧ runOn d (read16 l) s = (.ok ((registers l).setWidth 16), t) := by
  obtain ⟨t, ht, hread⟩ := hd l hl .bits16 s hs
  refine ⟨t, ht, ?_⟩
  rw [← Width.setWidth_truncate .bits16 (by decide)]
  exact runOn_bind_ok hread

theorem runOn_status32 (hd : Tells d K registers) (hl : l ∈ Layout.statusRegisters) (hs : K s) :
    ∃ t, K t ∧ runOn d (read32 l) s = (.ok ((registers l).setWidth 32), t) := by
  obtain ⟨t, ht, hread⟩ := hd l hl .bits32 s hs
  refine ⟨t, ht, ?_⟩
  rw [← Width.setWidth_truncate .bits32 (by decide)]
  exact runOn_bind_ok hread

theorem checkLinkPort_ok {chip : Chip} {port : UInt8} (h : port ≤ chip.lastPhyPort) :
    checkLinkPort chip port = .ok () := by
  have hlast := UInt8.lt_iff_toNat_lt.mp (chip.lastPhyPort_lt_cpuPort)
  have hcpu := UInt8.lt_iff_toNat_lt.mp (chip.cpuPort_lt_numPorts)
  have hport := UInt8.le_iff_toNat_le.mp h
  rw [checkLinkPort, if_neg, if_neg]
  · rw [UInt8.lt_iff_toNat_lt]
    omega
  · rw [UInt8.le_iff_toNat_le]
    omega

/-- On a device that tells its status registers, the link of a port with a PHY is what these say. -/
theorem runOn_portLink (hd : Tells d K registers) {c : Config} {port : UInt8} (h : port ≤ c.chip.lastPhyPort)
    (hs : K s) :
    ∃ t, K t ∧ runOn d (portLink c port) s = (c.chip.family.linkOf registers port, t) := by
  have hport := Chip.lt_of_le_lastPhyPort h
  have hdecode : ∀ (x : Except Error PortLink) (t : σ), runOn d (liftM x) t = (x, t) :=
    fun x t => by cases x <;> rfl
  obtain ⟨t, ht, hlink⟩ := runOn_status16 hd (l := Layout.linkStatus) (by decide) hs
  rw [portLink]
  cases hfamily : c.chip.family with
  | fastEthernet =>
    obtain ⟨u, hu, hspeed⟩ := runOn_status16 hd (l := Layout.speedStatus) (by decide) ht
    obtain ⟨v, hv, hduplex⟩ := runOn_status16 hd (l := Layout.duplexFast) (by decide) hu
    refine ⟨v, hv, ?_⟩
    rw [Family.portLink, FastEthernet.portLink, checkLinkPort_ok h]
    refine (runOn_bind_ok hlink).trans ((runOn_bind_ok hspeed).trans ((runOn_bind_ok hduplex).trans ?_))
    rw [PortLink.speedFieldFast_setWidth hport]
    exact hdecode _ v
  | gigabit =>
    obtain ⟨u, hu, hspeed⟩ := runOn_status32 hd (l := Layout.speedStatus) (by decide) ht
    obtain ⟨v, hv, hduplex⟩ := runOn_status16 hd (l := Layout.duplexGigabit) (by decide) hu
    refine ⟨v, hv, ?_⟩
    rw [Family.portLink, Gigabit.portLink, checkLinkPort_ok h]
    refine (runOn_bind_ok hlink).trans ((runOn_bind_ok hspeed).trans ((runOn_bind_ok hduplex).trans ?_))
    rw [PortLink.speedFieldGigabit_setWidth hport]
    exact hdecode _ v

theorem device_portLink (hd : Tells d K registers) {c : Config} {port : UInt8} (h : port ≤ c.chip.lastPhyPort)
    (hs : K s) :
    (layer.device d (.portLink port) (c, s)).1 = c.chip.family.linkOf registers port := by
  obtain ⟨t, -, hrun⟩ := runOn_portLink hd h hs
  have hscript := run_script d c s (portLink · port)
  rw [hrun] at hscript
  exact congrArg (fun r => r.1.1) hscript

theorem device_portLinks (hd : Tells d K registers) (c : Config) (hs : K s) :
    (layer.device d .portLinks (c, s)).1 =
      (portsBelow (c.chip.lastPhyPort + 1)).mapM (c.chip.family.linkOf registers) := by
  have hone : ∀ port ∈ portsBelow (c.chip.lastPhyPort + 1), ∀ s, K s →
      ∃ t, K t ∧ runOn d (portLink c port) s = (c.chip.family.linkOf registers port, t) :=
    fun port hport s hs =>
    runOn_portLink hd (Chip.mem_phyPorts.mp hport) hs
  obtain ⟨t, -, hrun⟩ := runOn_mapM hone hs
  have hscript := run_script d c s portLinks
  rw [show runOn d (portLinks c) s = _ from hrun] at hscript
  exact congrArg (fun r => r.1.1) hscript

theorem gives_of_checkLinkPort {c : Config} {port : UInt8} {err : Error}
    (h : checkLinkPort c.chip port = .error err) :
    Gives c (.portLink port) (.error err) c := by
  have hscript : portLink c port = throw err := by
    rw [portLink]
    cases c.chip.family with
    | fastEthernet =>
      rw [Family.portLink, FastEthernet.portLink, h]
      rfl
    | gigabit =>
      rw [Family.portLink, Gigabit.portLink, h]
      rfl
  show ((portLink c port).run >>= fun result => Program.done (result, c)) = _
  rw [hscript]
  rfl

/-- A port that the chip does not have, or that has no PHY, is refused without an access. For any other port the
    answer is what the port's own bits in the status registers say. The links of all ports are the links of
    one port after the other, or the error of the lowest port that has one. -/
theorem portLink_reads (hd : Tells d K registers) (c : Config) (hs : K s) :
    (∀ port, c.chip.numPorts ≤ port → Gives c (.portLink port) (.error (.invalidPort port c.chip.numPorts)) c) ∧
    (∀ port, c.chip.lastPhyPort < port → port < c.chip.numPorts →
      Gives c (.portLink port) (.error (.noPhyStatus port)) c) ∧
    (∀ port, port ≤ c.chip.lastPhyPort →
      c.chip.family.LinkRead registers port (layer.device d (.portLink port) (c, s)).1 ∧
      ∀ {τ : Type} {d' : Device Registers τ} {K' : τ → Prop} {registers' : Location → BitVec 64} {t : τ},
        Tells d' K' registers' → K' t → c.chip.family.SameLink registers registers' port →
        (layer.device d' (.portLink port) (c, t)).1 = (layer.device d (.portLink port) (c, s)).1) ∧
    (∀ links : List PortLink, (layer.device d .portLinks (c, s)).1 = .ok links ↔
      (portsBelow (c.chip.lastPhyPort + 1)).map (fun port => (layer.device d (.portLink port) (c, s)).1) =
        links.map Except.ok) ∧
    ∀ err, (layer.device d .portLinks (c, s)).1 = .error err ↔
      ∃ port, port ≤ c.chip.lastPhyPort ∧ (layer.device d (.portLink port) (c, s)).1 = .error err ∧
        ∀ q, q < port → ∃ link, (layer.device d (.portLink q) (c, s)).1 = .ok link := by
  refine ⟨fun port h => gives_of_checkLinkPort (if_pos h), fun port hlast h => gives_of_checkLinkPort ?_,
    fun port h => ⟨?_, fun hd' hs' hsame => ?_⟩, fun links => ?_, fun err => ?_⟩
  · rw [checkLinkPort, if_neg (UInt8.not_le.mpr h), if_pos hlast]
  · rw [device_portLink hd h hs]
    exact Family.linkRead_linkOf (Chip.lt_of_le_lastPhyPort h)
  · rw [device_portLink hd h hs, device_portLink hd' h hs']
    exact hsame.linkOf_eq (Chip.lt_of_le_lastPhyPort h)
  · have hone :
        (portsBelow (c.chip.lastPhyPort + 1)).map (fun port => (layer.device d (.portLink port) (c, s)).1) =
        (portsBelow (c.chip.lastPhyPort + 1)).map (c.chip.family.linkOf registers) :=
      List.map_congr_left fun port hport => device_portLink hd (Chip.mem_phyPorts.mp hport) hs
    rw [device_portLinks hd c hs, hone]
    exact mapM_eq_ok_iff
  · rw [device_portLinks hd c hs]
    refine (mapM_eq_error_iff (portsBelow_sorted _)).trans
      ⟨fun ⟨port, hport, hfails, hbefore⟩ => ?_, fun ⟨port, hport, hfails, hbefore⟩ => ?_⟩
    · have hle := Chip.mem_phyPorts.mp hport
      refine ⟨port, hle, (device_portLink hd hle hs).trans hfails, fun q hq => ?_⟩
      have hqle := UInt8.le_trans (UInt8.le_of_lt hq) hle
      obtain ⟨link, hlink⟩ := hbefore q (Chip.mem_phyPorts.mpr hqle) hq
      exact ⟨link, (device_portLink hd hqle hs).trans hlink⟩
    · refine ⟨port, Chip.mem_phyPorts.mpr hport, (device_portLink hd hport hs).symm.trans hfails,
        fun q hq hlt => ?_⟩
      obtain ⟨link, hlink⟩ := hbefore q hlt
      exact ⟨link, (device_portLink hd (Chip.mem_phyPorts.mp hq) hs).symm.trans hlink⟩

end

/-- Ports 0 and 2 are up. Ports 1 and 2 have a speed that does not exist. -/
def oddSpeeds : Bank :=
  (({} : Bank).set Layout.linkStatus 0b101).set Layout.speedStatus 0b111110 |>.set Layout.duplexGigabit 0b001

theorem portLink_reads_oddSpeeds :
    let c : Config := .initial ⟨.bcm53115, 0⟩
    (layer.device Bank.device (.portLink 0) (c, oddSpeeds)).1 = .ok ⟨0, true, .mbps1000, .full⟩ ∧
      (layer.device Bank.device (.portLink 1) (c, oddSpeeds)).1 = .ok ⟨1, false, .mbps10, .half⟩ ∧
      (layer.device Bank.device (.portLink 2) (c, oddSpeeds)).1 = .error (.invalidSpeed 2 3) ∧
      (layer.device Bank.device .portLinks (c, oddSpeeds)).1 = .error (.invalidSpeed 2 3) ∧
      Gives c (.portLink 6) (.error (.noPhyStatus 6)) c := by
  intro c
  obtain ⟨-, hmissing, hport, -, herror⟩ := portLink_reads (tells_bank (b := oddSpeeds) fun _ _ => rfl) c rfl
  have hzero := (hport 0 (by decide)).1.up rfl .mbps1000 rfl
  rw [if_pos (by decide)] at hzero
  have hone := (hport 1 (by decide)).1.down rfl
  have htwo := ((hport 2 (by decide)).1.fails _).mpr ⟨rfl, rfl, rfl, rfl⟩
  refine ⟨hzero, hone, htwo, (herror _).mpr ⟨2, by decide, htwo, fun q hq => ?_⟩,
    hmissing 6 (by decide) (by decide)⟩
  have hbelow : q = 0 ∨ q = 1 := by
    have := UInt8.lt_iff_toNat_lt.mp hq
    rw [← UInt8.toNat_inj, ← UInt8.toNat_inj]
    exact Nat.le_one_iff_eq_zero_or_eq_one.mp (Nat.le_of_lt_succ this)
  rcases hbelow with rfl | rfl
  · exact ⟨_, hzero⟩
  · exact ⟨_, hone⟩

end Switch

end EtherSwitch
