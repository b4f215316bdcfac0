import EtherSwitch.Proofs.Sharing

/-! Traffic of others on the buses of a shared chip, between the accesses of the engines on it. It can move the
    pages and the counters of the bus interfaces. An access selects its page anew and looks at no counter, so
    nobody can tell afterwards that there was traffic (`SharedChip.traffic_unnoticed`). -/

namespace EtherSwitch

/-! ### What accesses rely on -/

/-- The chips differ at most in the pages that their bus interfaces have selected, the polls counted there and
    the time that has passed. -/
structure Simulation.Similar (s t : Simulation) : Prop where
  faults : s.faults = t.faults
  store : s.store = t.store
  echo : s.mdioPort.echo = t.mdioPort.echo
  busy : s.mdioPort.busy = t.mdioPort.busy
  chunks : s.mdioPort.chunks = t.mdioPort.chunks
  data : s.spiPort.data = t.spiPort.data
  ready : s.spiPort.ready = t.spiPort.ready

namespace Simulation.Similar
variable {s t u : Simulation}

theorem refl (s : Simulation) : s.Similar s := ⟨rfl, rfl, rfl, rfl, rfl, rfl, rfl⟩

theorem trans (h : s.Similar t) (h' : t.Similar u) : s.Similar u :=
  ⟨h.faults.trans h'.faults, h.store.trans h'.store, h.echo.trans h'.echo, h.busy.trans h'.busy,
    h.chunks.trans h'.chunks, h.data.trans h'.data, h.ready.trans h'.ready⟩

/-- Selecting a page makes the pages of the MDIO sides the same. -/
theorem selectPage_mdio (h : s.Similar t) (page : UInt8) :
    ({ s with mdioPort := { s.mdioPort with page } } : Simulation).Similar
      { t with mdioPort := { t.mdioPort with page } } :=
  ⟨h.faults, h.store, h.echo, h.busy, h.chunks, h.data, h.ready⟩

theorem selectPage_spi (h : s.Similar t) (page : UInt8) :
    ({ s with spiPort := { s.spiPort with page } } : Simulation).Similar
      { t with spiPort := { t.spiPort with page } } :=
  ⟨h.faults, h.store, h.echo, h.busy, h.chunks, h.data, h.ready⟩

/-- No call on the MDIO bus tells the chips apart while the same page is selected there. -/
theorem mdio (h : s.Similar t) (hpage : s.mdioPort.page = t.mdioPort.page) (c : MdioBus.Call) :
    (Simulation.mdio c s).1 = (Simulation.mdio c t).1 ∧
      (Simulation.mdio c s).2.Similar (Simulation.mdio c t).2 ∧
      (Simulation.mdio c s).2.mdioPort.page = (Simulation.mdio c t).2.mdioPort.page := by
  obtain ⟨faults, store, ⟨page, echo, busy, chunks, polls⟩, ⟨page', data, ready, polls'⟩, elapsed⟩ := s
  obtain ⟨faults₁, store₁, ⟨page₁, echo₁, busy₁, chunks₁, polls₁⟩,
    ⟨page₁', data₁, ready₁, polls₁'⟩, elapsed₁⟩ := t
  obtain ⟨rfl, rfl, rfl, rfl, rfl, rfl, rfl⟩ := h
  obtain rfl : page = page₁ := hpage
  cases c with
  | read phy register =>
    simp only [Simulation.mdio, MdioPort.read]
    repeat' split
    all_goals exact ⟨rfl, ⟨rfl, rfl, rfl, rfl, rfl, rfl, rfl⟩, rfl⟩
  | write phy register word =>
    simp only [Simulation.mdio, MdioPort.write, MdioPort.operate]
    repeat' split
    all_goals exact ⟨rfl, ⟨rfl, rfl, rfl, rfl, rfl, rfl, rfl⟩, rfl⟩
  | delay micros => exact ⟨rfl, ⟨rfl, rfl, rfl, rfl, rfl, rfl, rfl⟩, rfl⟩

/-- No call on the SPI bus tells the chips apart while the same page is selected there. -/
theorem spi (h : s.Similar t) (hpage : s.spiPort.page = t.spiPort.page) (c : SpiBus.Call) :
    (Simulation.spi c s).1 = (Simulation.spi c t).1 ∧ (Simulation.spi c s).2.Similar (Simulation.spi c t).2 ∧
      (Simulation.spi c s).2.spiPort.page = (Simulation.spi c t).2.spiPort.page := by
  obtain ⟨faults, store, ⟨page, echo, busy, chunks, polls⟩, ⟨page', data, ready, polls'⟩, elapsed⟩ := s
  obtain ⟨faults₁, store₁, ⟨page₁, echo₁, busy₁, chunks₁, polls₁⟩,
    ⟨page₁', data₁, ready₁, polls₁'⟩, elapsed₁⟩ := t
  obtain ⟨rfl, rfl, rfl, rfl, rfl, rfl, rfl⟩ := h
  obtain rfl : page' = page₁' := hpage
  cases c with
  | write bytes =>
    simp only [Simulation.spi, SpiPort.write]
    repeat' split
    all_goals exact ⟨rfl, ⟨rfl, rfl, rfl, rfl, rfl, rfl, rfl⟩, rfl⟩
  | transfer bytes length =>
    simp only [Simulation.spi, SpiPort.transfer, SpiPort.readByte]
    repeat' split
    all_goals exact ⟨rfl, ⟨rfl, rfl, rfl, rfl, rfl, rfl, rfl⟩, rfl⟩
  | delay micros => exact ⟨rfl, ⟨rfl, rfl, rfl, rfl, rfl, rfl, rfl⟩, rfl⟩

end Simulation.Similar

/-! ### Accesses -/

namespace PseudoPhy

/-- An access begins with the selection of its page. -/
theorem layer_eq_ask (settings : Settings) (c : Registers.Call) (n : Nat) :
    ∃ k, (settings.layer c).run n =
      .ask (.write settings.phy pageRegister (c.address.location.page.toBitVec ++ (1 : BitVec 8))) k := by
  cases c <;> exact ⟨_, rfl⟩

/-- Whatever page was selected, an access over MDIO does the same to similar chips. -/
theorem run_similar (settings : Settings) (c : Registers.Call) (n : Nat) {s t : Simulation} (h : s.Similar t) :
    (Program.run Simulation.mdio ((settings.layer c).run n) s).1 =
      (Program.run Simulation.mdio ((settings.layer c).run n) t).1 ∧
      (Program.run Simulation.mdio ((settings.layer c).run n) s).2.Similar
        (Program.run Simulation.mdio ((settings.layer c).run n) t).2 := by
  by_cases hphy : settings.phy = defaultPhy
  · obtain ⟨k, hk⟩ := layer_eq_ask settings c n
    rw [hk, Program.run_ask, Program.run_ask, hphy, mdio_selectPage, mdio_selectPage]
    obtain ⟨hanswer, hend, -⟩ :=
      Program.run_congr (R := fun s t : Simulation => s.Similar t ∧ s.mdioPort.page = t.mdioPort.page)
      (fun c s t hst => hst.1.mdio hst.2 c) (k (.ok ())) ⟨h.selectPage_mdio c.address.location.page, rfl⟩
    exact ⟨hanswer, hend⟩
  · -- The calls go to another PHY, which is no part of the chip.
    have hallow : settings.Allows fun c => ∀ s t : Simulation, s.Similar t →
        (Simulation.mdio c s).1 = (Simulation.mdio c t).1 ∧
          (Simulation.mdio c s).2.Similar (Simulation.mdio c t).2 :=
      ⟨⟨fun register s t hst => by simpa [Simulation.mdio, hphy] using hst,
        fun micros s t hst =>
          ⟨rfl, hst.faults, hst.store, hst.echo, hst.busy, hst.chunks, hst.data, hst.ready⟩⟩,
        fun register word _ s t hst => by simpa [Simulation.mdio, hphy] using hst⟩
    exact Program.run_congr_of_calls (fun c s t hc hst => hc s t hst)
      (calls_layer hallow c n fun l op s t hst => by simpa [Simulation.mdio, hphy] using hst) h

end PseudoPhy

namespace SpiFrames

theorem layer_eq_ask (c : Registers.Call) :
    ∃ k, (layer c).run () = .ask (.write [writeCommand, pageRegister, c.address.location.page]) k := by
  cases c <;> exact ⟨_, rfl⟩

theorem run_similar (c : Registers.Call) {s t : Simulation} (h : s.Similar t) :
    (Program.run Simulation.spi ((layer c).run ()) s).1 = (Program.run Simulation.spi ((layer c).run ()) t).1 ∧
      (Program.run Simulation.spi ((layer c).run ()) s).2.Similar
        (Program.run Simulation.spi ((layer c).run ()) t).2 := by
  obtain ⟨k, hk⟩ := layer_eq_ask c
  rw [hk, Program.run_ask, Program.run_ask]
  obtain ⟨hanswer, hend, -⟩ :=
    Program.run_congr (R := fun s t : Simulation => s.Similar t ∧ s.spiPort.page = t.spiPort.page)
    (fun c s t hst => hst.1.spi hst.2 c) (k (.ok ())) ⟨h.selectPage_spi c.address.location.page, rfl⟩
  exact ⟨hanswer, hend⟩

end SpiFrames

/-- The answer of an access does not depend on what similar chips differ in. -/
theorem Engine.device_similar (e : Engine) (c : Registers.Call) (n : Nat) {s t : Simulation} (h : s.Similar t) :
    (e.device c (n, s)).1 = (e.device c (n, t)).1 ∧ (e.device c (n, s)).2.1 = (e.device c (n, t)).2.1 ∧
      (e.device c (n, s)).2.2.Similar (e.device c (n, t)).2.2 := by
  cases e with
  | mdio settings =>
    obtain ⟨hrun, hend⟩ := PseudoPhy.run_similar settings c n h
    obtain ⟨hanswer, hcount⟩ := Prod.ext_iff.mp hrun
    exact ⟨hanswer, hcount, hend⟩
  | spi =>
    obtain ⟨hrun, hend⟩ := SpiFrames.run_similar c h
    obtain ⟨hanswer, -⟩ := Prod.ext_iff.mp hrun
    exact ⟨hanswer, rfl, hend⟩

namespace SharedChip

/-- The chips behind the lock are similar; nothing else differs. -/
structure Similar (s t : SharedChip) : Prop where
  poisoned : s.poisoned = t.poisoned
  timeouts : s.timeouts = t.timeouts
  chip : s.chip.Similar t.chip

section
variable {s t u : SharedChip}

theorem Similar.trans (h : s.Similar t) (h' : t.Similar u) : s.Similar u :=
  ⟨h.poisoned.trans h'.poisoned, h.timeouts.trans h'.timeouts, h.chip.trans h'.chip⟩

theorem access_of_poisoned (a : Access) (h : s.poisoned = true) :
    (access a s).2 = s ∧ ∀ t : SharedChip, t.poisoned = true → (access a t).1 = (access a s).1 := by
  obtain ⟨engine, call⟩ := a
  obtain ⟨poisoned, timeouts, chip⟩ := s
  obtain rfl : poisoned = true := h
  have hlocked : ∀ t : SharedChip, t.poisoned = true →
      (access ⟨engine, call⟩ t).1 = (access ⟨engine, call⟩ ⟨true, timeouts, chip⟩).1 := by
    rintro ⟨poisoned, timeouts, chip⟩ h
    obtain rfl : poisoned = true := h
    cases engine <;> cases call <;> rfl
  refine ⟨?_, hlocked⟩
  cases engine <;> cases call <;> rfl

theorem access_similar (a : Access) (h : s.Similar t) :
    (access a s).1 = (access a t).1 ∧ (access a s).2.Similar (access a t).2 := by
  cases hpoisoned : s.poisoned with
  | true =>
    have hpoisoned' : t.poisoned = true := h.poisoned ▸ hpoisoned
    obtain ⟨hs, hsame⟩ := access_of_poisoned a hpoisoned
    rw [hs, (access_of_poisoned a hpoisoned').1]
    exact ⟨(hsame t hpoisoned').symm, h⟩
  | false =>
    obtain ⟨hanswer, hcount, hchip⟩ := a.engine.device_similar a.call s.timeouts h.chip
    rw [access_of_free a hpoisoned, access_of_free a (h.poisoned ▸ hpoisoned), ← h.timeouts]
    exact ⟨hanswer, rfl, hcount, hchip⟩

end

/-! ### Traffic -/

/-- A bus cycle of someone else. -/
inductive Cycle where
  | mdio (call : MdioBus.Call)
  | spi (call : SpiBus.Call)
  deriving DecidableEq, Repr

/-- What a bus cycle leaves; its answer is for whoever made it. -/
def cycle : Cycle → SharedChip → SharedChip
  | .mdio call, s => (mdioBus call s).2
  | .spi call, s => (spiBus call s).2

/-- The registers of the pseudo PHY that issue operations and hold their data. -/
def operands : List UInt8 := PseudoPhy.addressRegister :: (List.range 4).map PseudoPhy.dataRegister

/-- The registers of the SPI interface that show how a read is getting on and what it gave. -/
def readouts : List UInt8 := SpiFrames.statusRegister :: (List.range 8).map SpiFrames.dataRegister

/-- Cycles that start nothing on the chip and load nothing into it: reads of any PHY, writes
    to other PHYs or to other registers of the pseudo PHY, selections of a page over SPI and
    looks at how a read over SPI came out. -/
def Cycle.Harmless : Cycle → Prop
  | .mdio (.read _ _) => True
  | .mdio (.write phy register _) => phy = PseudoPhy.defaultPhy → register ∉ operands
  | .spi (.write bytes) => ∃ page, bytes = [SpiFrames.writeCommand, SpiFrames.pageRegister, page]
  | .spi (.transfer bytes _) => ∃ register ∈ readouts, bytes = [SpiFrames.readCommand, register]
  | .mdio (.delay _) | .spi (.delay _) => True

theorem chunkIndex?_of_not_mem {register : UInt8} (h : register ∉ operands) :
    MdioPort.chunkIndex? register = none := by
  rw [MdioPort.chunkIndex?, dif_neg]
  rintro ⟨hle, hlt⟩
  have hle : 24 ≤ register.toNat := hle
  have hlt : register.toNat - 24 < 4 := hlt
  refine h (List.mem_cons_of_mem _ (List.mem_map.mpr ⟨register.toNat - 24, List.mem_range.mpr hlt, ?_⟩))
  apply UInt8.toNat_inj.mp
  rw [PseudoPhy.dataRegister, UInt8.toNat_add, UInt8.toNat_ofNat', show (0x18 : UInt8).toNat = 24 from rfl]
  omega

/-- A harmless cycle leaves a similar chip. -/
theorem cycle_similar {c : Cycle} (hc : c.Harmless) (s : SharedChip) : (cycle c s).Similar s := by
  obtain ⟨poisoned, timeouts, chip⟩ := s
  suffices hchip : (cycle c ⟨poisoned, timeouts, chip⟩).chip.Similar chip from by
    cases c <;> exact ⟨rfl, rfl, hchip⟩
  cases c with
  | mdio call =>
    cases call with
    | read phy register =>
      simp only [cycle, mdioBus, Device.within, setChip, Simulation.mdio, MdioPort.read]
      repeat' split
      all_goals exact ⟨rfl, rfl, rfl, rfl, rfl, rfl, rfl⟩
    | write phy register word =>
      simp only [cycle, mdioBus, Device.within, setChip, Simulation.mdio]
      split
      case isTrue hphy =>
        have hnone := chunkIndex?_of_not_mem (hc hphy)
        have hissue : register ≠ PseudoPhy.addressRegister := fun h => hc hphy (h ▸ List.mem_cons_self)
        simp only [MdioPort.write, if_neg hissue, hnone]
        split <;> exact ⟨rfl, rfl, rfl, rfl, rfl, rfl, rfl⟩
      case isFalse => exact ⟨rfl, rfl, rfl, rfl, rfl, rfl, rfl⟩
    | delay micros => exact ⟨rfl, rfl, rfl, rfl, rfl, rfl, rfl⟩
  | spi call =>
    cases call with
    | write bytes =>
      obtain ⟨page, rfl⟩ := hc
      exact ⟨rfl, rfl, rfl, rfl, rfl, rfl, rfl⟩
    | transfer bytes length =>
      obtain ⟨register, hregister, rfl⟩ := hc
      cases length with
      | zero => exact ⟨rfl, rfl, rfl, rfl, rfl, rfl, rfl⟩
      | succ length =>
        rcases List.mem_cons.mp hregister with rfl | hdata
        · exact ⟨rfl, rfl, rfl, rfl, rfl, rfl, rfl⟩
        · obtain ⟨i, hi, rfl⟩ := List.mem_map.mp hdata
          have hi := List.mem_range.mp hi
          simp only [cycle, spiBus, Device.within, setChip, Simulation.spi, SpiPort.transfer, SpiPort.readByte,
            if_neg (SpiFrames.dataRegister_ne_status hi), SpiFrames.byteIndex?_dataRegister hi, if_true]
          exact ⟨rfl, rfl, rfl, rfl, rfl, rfl, rfl⟩
    | delay micros => exact ⟨rfl, rfl, rfl, rfl, rfl, rfl, rfl⟩

/-! ### Accesses amid traffic -/

/-- What happens on the buses of a shared chip: an access, as a whole, or a bus cycle of someone else. -/
inductive Event where
  | access (a : Access)
  | cycle (c : Cycle)

def Event.access? : Event → Option Access
  | access a => some a
  | cycle _ => none

/-- The exchanges of the accesses among some events, one event after the other. -/
def serveAmid : List Event → SharedChip → List Registers.Exchange × SharedChip
  | [], s => ([], s)
  | .access a :: events, s =>
    (⟨a.call, (access a s).1⟩ :: (serveAmid events (access a s).2).1, (serveAmid events (access a s).2).2)
  | .cycle c :: events, s => serveAmid events (cycle c s)

section
variable {events : List Event} {s t : SharedChip}

theorem serveAmid_similar (h : ∀ c, .cycle c ∈ events → c.Harmless) (hst : s.Similar t) :
    (serveAmid events s).1 = (serve (events.filterMap Event.access?) t).1 ∧
      (serveAmid events s).2.Similar (serve (events.filterMap Event.access?) t).2 := by
  induction events generalizing s t with
  | nil => exact ⟨rfl, hst⟩
  | cons event events ih =>
    have hrest : ∀ c, .cycle c ∈ events → c.Harmless := fun c hc => h c (List.mem_cons_of_mem event hc)
    cases event with
    | access a =>
      obtain ⟨hanswer, hstep⟩ := access_similar a hst
      obtain ⟨hexchanges, hend⟩ := ih hrest hstep
      refine ⟨?_, hend⟩
      rw [serveAmid, hanswer, hexchanges]
      rfl
    | cycle c => exact ih hrest ((cycle_similar (h c List.mem_cons_self) s).trans hst)

/-- Harmless traffic between accesses, however much of it there is and whatever accesses they are, changes
    nothing that the accesses give and nothing that they leave in the store. -/
theorem traffic_unnoticed (h : ∀ c, .cycle c ∈ events → c.Harmless) :
    (serveAmid events s).1 = (serve (events.filterMap Event.access?) s).1 ∧
      (serveAmid events s).2.chip.store = (serve (events.filterMap Event.access?) s).2.chip.store ∧
      (serveAmid events s).2.timeouts = (serve (events.filterMap Event.access?) s).2.timeouts := by
  obtain ⟨hexchanges, hend⟩ := serveAmid_similar h ⟨rfl, rfl, .refl s.chip⟩
  exact ⟨hexchanges, hend.chip.store, hend.timeouts⟩

end

/-- An access over MDIO and one over SPI, with others selecting pages of their own before,
    between and after them. -/
def crossed : List Event :=
  [.cycle (.spi (.write [SpiFrames.writeCommand, SpiFrames.pageRegister, Layout.arlPage])),
    .access ⟨.mdio {}, .write ⟨Layout.switchMode, .bits8⟩ 0x1ff⟩,
    .cycle (.mdio (.read 0x07 0x02)),
      .cycle (.mdio (.write PseudoPhy.defaultPhy PseudoPhy.pageRegister 0x3401)),
    .access ⟨.spi, .read ⟨Layout.switchMode, .bits16⟩⟩,
    .cycle (.spi (.transfer [SpiFrames.readCommand, SpiFrames.statusRegister] 1)),
    .cycle (.spi (.write [SpiFrames.writeCommand, SpiFrames.pageRegister, Layout.vlanPage]))]

/-- The pages are left on others, and the accesses are answered as ever. -/
theorem traffic_unnoticed_crossed :
    (∀ c, .cycle c ∈ crossed → c.Harmless) ∧
      (serveAmid crossed (new .standard)).1 =
        (serve [⟨.mdio {}, .write ⟨Layout.switchMode, .bits8⟩ 0x1ff⟩,
          ⟨.spi, .read ⟨Layout.switchMode, .bits16⟩⟩]
          (new .standard)).1 ∧
      (serveAmid crossed (new .standard)).2.chip.store.registers Layout.switchMode = 0xff ∧
      (serveAmid crossed (new .standard)).2.chip.mdioPort.page = Layout.vlanPage ∧
      (serveAmid crossed (new .standard)).2.chip.spiPort.page = Layout.vlanPage := by
  have hharmless : ∀ c, .cycle c ∈ crossed → c.Harmless := by
    intro c hc
    simp only [crossed, List.mem_cons, List.not_mem_nil, or_false, reduceCtorEq, false_or, Event.cycle.injEq]
      at hc
    rcases hc with rfl | rfl | rfl | rfl | rfl
    · exact ⟨_, rfl⟩
    · trivial
    · exact fun _ => by decide
    · exact ⟨_, List.mem_cons_self, rfl⟩
    · exact ⟨_, rfl⟩
  obtain ⟨hexchanges, hstore, -⟩ := traffic_unnoticed (s := new .standard) hharmless
  refine ⟨hharmless, hexchanges, ?_, rfl, rfl⟩
  rw [hstore]
  rfl

/-- A data register that someone else loads is no such traffic: the next write takes it along. -/
example :
    (access ⟨.mdio {}, .write ⟨Layout.switchMode, .bits8⟩ 0x12⟩
      (cycle (.mdio (.write PseudoPhy.defaultPhy (PseudoPhy.dataRegister 1) 0xaaaa))
        (new .standard))).2.chip.store.registers
        Layout.switchMode = 0xaaaa0012 := rfl

end SharedChip

end EtherSwitch
