import EtherSwitch.Proofs.Links
import EtherSwitch.Proofs.Operations

/-! Links that change under a switch in operation. A change touches the bits of one port in the three
    summaries of the simulated chip (`Simulation.relink`), operations touch none of these, so every port is
    told as its own last change left it (`Switch.portLink_follows_changes`). -/

namespace EtherSwitch
open Script

/-- A change of the link status of a port. -/
structure LinkChange where
  port : UInt8
  up : Bool
  speed : Speed
  duplex : Duplex
  deriving DecidableEq, Repr

/-- The last one of the changes that is about the port. -/
def LinkChange.latest? (port : UInt8) (changes : List LinkChange) : Option LinkChange :=
  (changes.filter fun x => x.port = port).getLast?

/-- What a chip of the family tells of a speed: fast Ethernet chips only tell 10 Mbit/s from more. -/
def Family.toldSpeed : Family → Speed → Speed
  | .fastEthernet, .mbps1000 => .mbps100
  | _, speed => speed

/-- What a chip of the family tells of the link of a port, given the last change of it. -/
def Family.told (family : Family) (port : UInt8) : Option LinkChange → PortLink
  | none => .down port
  | some x => if x.up then ⟨port, true, family.toldSpeed x.speed, x.duplex⟩ else .down port

def Simulation.relink (s : Simulation) (x : LinkChange) : Simulation := s.setLink x.port x.up x.speed x.duplex

theorem LinkChange.latest?_append (port : UInt8) (changes : List LinkChange) (x : LinkChange) :
    latest? port (changes ++ [x]) = if x.port = port then some x else latest? port changes := by
  by_cases h : x.port = port <;> simp [latest?, List.filter_append, h]

/-! ### Fields of summaries -/

section
variable {port : UInt8}

theorem getLsbD_putBit (h : port.toNat < 64) (on : Bool) (summary : BitVec 64) (i : Nat) :
    (Simulation.putBit port on summary).getLsbD i = if i = port.toNat then on else summary.getLsbD i := by
  have hmask : (1#64 <<< port.toNat).getLsbD i = decide (i = port.toNat) := by
    rw [BitVec.getLsbD_shiftLeft, BitVec.getLsbD_one]
    by_cases hi : i = port.toNat
    · simp [hi, h]
    · simp only [hi, decide_false]
      by_cases hlow : i < port.toNat
      · simp [hlow]
      · simp [show i - port.toNat ≠ 0 by omega]
  rw [Simulation.putBit]
  cases on with
  | true =>
    rw [if_pos rfl, BitVec.getLsbD_or, hmask]
    by_cases hi : i = port.toNat <;> simp [hi]
  | false =>
    rw [if_neg Bool.false_ne_true, BitVec.getLsbD_and, BitVec.getLsbD_not, hmask]
    by_cases hi : i = port.toNat
    · simp [hi]
    · simp only [hi, decide_false, Bool.not_false, Bool.and_true, if_false]
      by_cases hbound : i < 64
      · simp [hbound]
      · simp [BitVec.getLsbD_of_ge summary i (Nat.le_of_not_lt hbound)]

theorem getLsbD_putSpeed (h : port.toNat < 16) (speed : Speed) (summary : BitVec 64) (i : Nat) :
    (Simulation.putSpeed port speed summary).getLsbD i =
      if 2 * port.toNat ≤ i ∧ i < 2 * port.toNat + 2
        then (Simulation.speedField speed).getLsbD (i - 2 * port.toNat)
      else summary.getLsbD i := by
  have hthree : ∀ k, (3#64).getLsbD k = decide (k < 2) := by
    intro k
    by_cases hk : k < 64
    · revert k
      decide
    · rw [BitVec.getLsbD_of_ge _ _ (Nat.le_of_not_lt hk)]
      exact (decide_eq_false (by omega)).symm
  have hfield : ∀ k, 2 ≤ k → (Simulation.speedField speed).getLsbD k = false := by
    intro k hk
    have hbits : Simulation.speedField speed &&& 3#64 = Simulation.speedField speed := by cases speed <;> decide
    rw [← hbits, BitVec.getLsbD_and, hthree, decide_eq_false (Nat.not_lt.mpr hk), Bool.and_false]
  rw [Simulation.putSpeed, BitVec.getLsbD_or, BitVec.getLsbD_and, BitVec.getLsbD_not, BitVec.getLsbD_shiftLeft,
    BitVec.getLsbD_shiftLeft, hthree]
  by_cases hbound : i < 64
  · by_cases hlow : i < 2 * port.toNat
    · simp [hbound, hlow, Nat.not_le.mpr hlow]
    · by_cases hhigh : i < 2 * port.toNat + 2
      · simp [hbound, hlow, hhigh, show i - 2 * port.toNat < 2 by omega, Nat.le_of_not_lt hlow]
      · simp [hbound, hlow, hhigh,
          show ¬i - 2 * port.toNat < 2 by omega, hfield (i - 2 * port.toNat) (by omega)]
  · simp [hbound, BitVec.getLsbD_of_ge summary i (Nat.le_of_not_lt hbound),
      show ¬i < 2 * port.toNat + 2 by omega]

end

/-! ### Changes of a link -/

/-- The registers show the last change of the link of a port, or no link if there was none. -/
def Family.Shows (family : Family) (registers : Location → BitVec 64) (port : UInt8) : Option LinkChange → Prop
  | none => (registers Layout.linkStatus).getLsbD port.toNat = false
  | some x => (registers Layout.linkStatus).getLsbD port.toNat = x.up ∧
      family.speedField registers port = (family.toldSpeed x.speed).code ∧
      (registers family.duplexStatus).getLsbD port.toNat = decide (x.duplex = .full)

namespace Family
variable {family : Family} {registers registers' : Location → BitVec 64} {port : UInt8}
    {latest : Option LinkChange}

theorem Shows.of_same (h : family.Shows registers port latest)
    (hsame : family.SameLink registers registers' port) :
    family.Shows registers' port latest := by
  cases latest with
  | none => exact hsame.link.trans h
  | some x =>
    obtain ⟨hup, hspeed, hduplex⟩ := h
    exact ⟨hsame.link.trans hup, hsame.speed ▸ hspeed, hsame.duplex.trans hduplex⟩

theorem Shows.linkOf_eq (h : family.Shows registers port latest) (hport : port.toNat < 16) :
    family.linkOf registers port = .ok (family.told port latest) := by
  rw [Family.linkOf_eq hport]
  cases latest with
  | none =>
    rw [show (registers Layout.linkStatus).getLsbD port.toNat = false from h]
    rfl
  | some x =>
    obtain ⟨hup, hspeed, hduplex⟩ := h
    rw [hup, hspeed, PortLink.speedOfField?_code, hduplex, told]
    cases x.up with
    | false => rfl
    | true => cases x.duplex <;> rfl

end Family

namespace Simulation
variable {s : Simulation} {chip : Chip} {x : LinkChange}

/-- A change of a link changes the summaries of the links, the speeds and the duplexes. -/
structure Relinked (chip : Chip) (x : LinkChange) (registers registers' : Location → BitVec 64) : Prop where
  link : registers' Layout.linkStatus = putBit x.port x.up (registers Layout.linkStatus)
  speed : registers' Layout.speedStatus =
    match chip.family with
    | .fastEthernet => putBit x.port (x.speed ≠ .mbps10) (registers Layout.speedStatus)
    | .gigabit => putSpeed x.port x.speed (registers Layout.speedStatus)
  duplex :
  registers' chip.family.duplexStatus = putBit x.port (x.duplex = .full) (registers chip.family.duplexStatus)
  others : ∀ l ∉ Layout.statusRegisters, registers' l = registers l

theorem registers_modify_of_ne (s : Simulation) {l l' : Location} (f : BitVec 64 → BitVec 64) (h : l' ≠ l) :
    (s.modifyRegister l f).store.registers l' = s.store.registers l' :=
  s.store.registers_set_of_ne _ h

theorem relinked (hchip : s.store.chip = some chip) (x : LinkChange) :
    Relinked chip x s.store.registers (s.relink x).store.registers := by
  have hothers : ∀ l ∉ Layout.statusRegisters, (s.relink x).store.registers l = s.store.registers l := by
    intro l hl
    have hne : ∀ l' ∈ Layout.statusRegisters, l ≠ l' := fun l' hl' heq => hl (heq ▸ hl')
    simp only [Layout.statusRegisters, List.forall_mem_cons] at hne
    obtain ⟨hlink, hspeed, hfast, hgigabit, -⟩ := hne
    rw [relink, setLink, registers_modify_of_ne, registers_modify_of_ne _ _ hspeed,
      registers_modify_of_ne _ _ hlink]
    split
    · exact hgigabit
    · exact hfast
  cases hfamily : chip.family with
  | fastEthernet =>
    have hslow : ¬(s.store.chip.map Chip.family = some .gigabit) := by simp [hchip, hfamily]
    refine ⟨?_, ?_, ?_, hothers⟩ <;> simp only [relink, setLink, if_neg hslow, hfamily] <;> rfl
  | gigabit =>
    have hfast : s.store.chip.map Chip.family = some .gigabit := by simp [hchip, hfamily]
    refine ⟨?_, ?_, ?_, hothers⟩ <;> simp only [relink, setLink, if_pos hfast, hfamily] <;> rfl

section
variable {registers registers' : Location → BitVec 64} {port : UInt8}

/-- The change is nothing to other ports. -/
theorem Relinked.same (h : Relinked chip x registers registers') (hx : x.port.toNat < 16)
    (hne : x.port ≠ port) :
    chip.family.SameLink registers registers' port := by
  have hport : port.toNat ≠ x.port.toNat := fun heq => hne (UInt8.toNat_inj.mp heq.symm)
  have hbit : ∀ (on : Bool) (summary : BitVec 64), (putBit x.port on summary).getLsbD port.toNat =
      summary.getLsbD port.toNat :=
    fun on summary => (getLsbD_putBit (by omega) on summary _).trans (if_neg hport)
  refine ⟨by rw [h.link, hbit], ?_, by rw [h.duplex, hbit]⟩
  have hspeed := h.speed
  cases hfamily : chip.family with
  | fastEthernet =>
    rw [hfamily] at hspeed
    refine congrArg (BitVec.setWidth 8) (BitVec.eq_of_getLsbD_eq fun i hi => ?_)
    obtain rfl := Nat.lt_one_iff.mp hi
    simp only [hspeed, BitVec.getLsbD_extractLsb', Nat.add_zero, hbit]
  | gigabit =>
    rw [hfamily] at hspeed
    refine congrArg (BitVec.setWidth 8) (BitVec.eq_of_getLsbD_eq fun i hi => ?_)
    simp only [hspeed, BitVec.getLsbD_extractLsb', getLsbD_putSpeed hx]
    rw [if_neg (by omega)]

/-- The port itself shows the change. -/
theorem Relinked.shows (h : Relinked chip x registers registers') (hx : x.port.toNat < 16) :
    chip.family.Shows registers' x.port (some x) := by
  have hbit : ∀ (on : Bool) (summary : BitVec 64), (putBit x.port on summary).getLsbD x.port.toNat = on :=
    fun on summary => (getLsbD_putBit (by omega) on summary _).trans (if_pos rfl)
  refine ⟨by rw [h.link, hbit], ?_, by rw [h.duplex, hbit]⟩
  have hspeed := h.speed
  cases hfamily : chip.family with
  | fastEthernet =>
    rw [hfamily] at hspeed
    have hfield : (registers' Layout.speedStatus).extractLsb' x.port.toNat 1 =
        BitVec.ofBool (x.speed ≠ .mbps10) := by
      refine BitVec.eq_of_getLsbD_eq fun i hi => ?_
      obtain rfl := Nat.lt_one_iff.mp hi
      simp only [hspeed, BitVec.getLsbD_extractLsb', Nat.add_zero, hbit]
      simp
    rw [show Family.speedField .fastEthernet registers' x.port = _ from congrArg (BitVec.setWidth 8) hfield]
    cases x.speed <;> rfl
  | gigabit =>
    rw [hfamily] at hspeed
    have hfield : (registers' Layout.speedStatus).extractLsb' (2 * x.port.toNat) 2 =
        (speedField x.speed).setWidth 2 := by
      refine BitVec.eq_of_getLsbD_eq fun i hi => ?_
      simp only [hspeed, BitVec.getLsbD_extractLsb', getLsbD_putSpeed hx, BitVec.getLsbD_setWidth]
      rw [if_pos (by omega), Nat.add_sub_cancel_left]
    rw [show Family.speedField .gigabit registers' x.port = _ from congrArg (BitVec.setWidth 8) hfield]
    cases x.speed <;> rfl

end

end Simulation

/-- The registers show the last change of every port. -/
def Chip.ShowsLatest (chip : Chip) (changes : List LinkChange) (registers : Location → BitVec 64) : Prop :=
  ∀ port : UInt8, port.toNat < 16 → chip.family.Shows registers port (LinkChange.latest? port changes)

namespace Chip.ShowsLatest
variable {chip : Chip} {changes : List LinkChange} {registers registers' : Location → BitVec 64}

theorem relink (h : chip.ShowsLatest changes registers) {x : LinkChange} (hx : x.port < chip.numPorts)
    (hrelinked : Simulation.Relinked chip x registers registers') :
    chip.ShowsLatest (changes ++ [x]) registers' := by
  intro port hport
  have hlow := Nat.lt_of_lt_of_le (UInt8.lt_iff_toNat_lt.mp hx) chip.numPorts_le
  rw [LinkChange.latest?_append]
  by_cases heq : x.port = port
  · subst heq
    rw [if_pos rfl]
    exact hrelinked.shows hport
  · rw [if_neg heq]
    exact (h port hport).of_same (hrelinked.same (by omega) heq)

theorem of_status (h : chip.ShowsLatest changes registers)
    (hstatus : ∀ l ∈ Layout.statusRegisters, registers' l = registers l) :
    chip.ShowsLatest changes registers' := by
  intro port hport
  have hduplex : chip.family.duplexStatus ∈ Layout.statusRegisters := by cases chip <;> decide
  refine (h port hport).of_same ⟨?_, ?_, ?_⟩
  · rw [hstatus Layout.linkStatus (by decide)]
  · unfold Family.speedField
    rw [hstatus Layout.speedStatus (by decide)]
  · rw [hstatus _ hduplex]

end Chip.ShowsLatest

/-- What a switch writes, it writes elsewhere. -/
theorem Chip.statusRegisters_disjoint (chip : Chip) : ∀ l ∈ Layout.statusRegisters,
    l ∉ chip.writtenRegisters ∧ l ∉ Layout.switchMode :: chip.controlRegisters ++ [Layout.portOverride] := by
  cases chip <;> decide

/-! ### Changes under a switch -/

namespace Simulation
variable {s : Simulation}

theorem Reachable.relink (h : s.Reachable) (x : LinkChange) : (s.relink x).Reachable :=
  ((h.setRegister _ _).setRegister _ _).setRegister _ _

theorem FaultFree.relink (h : s.FaultFree) (x : LinkChange) : (s.relink x).FaultFree :=
  ⟨h.completes, h.acknowledges, h.forwards⟩

theorem Ready.relink {chip : Chip} (h : s.Ready chip) (x : LinkChange) : (s.relink x).Ready chip :=
  ⟨h.reachable.relink x, h.faultFree.relink x, h.chip, h.shown⟩

end Simulation

/-- An engine tells the status registers of a chip without faults. -/
theorem tells_engine {e : Engine} (he : e.Attached) {chip : Chip} (registers : Location → BitVec 64) :
    Tells e.device (fun u => u.2.Ready chip ∧ u.2.store.registers = registers) registers := by
  rintro l hl w ⟨n, s⟩ ⟨hs, rfl⟩
  have hplain : ∀ l ∈ Layout.statusRegisters, l.offset ∉ SpiFrames.reserved := by decide
  obtain ⟨hanswer, hstore⟩ :=
    Engine.device_eq_store (e := e) (he.serves hs.faultFree (c := .read ⟨l, w⟩) (hplain l hl))
    (Or.inl ⟨_, rfl⟩) n
  rw [Store.device, Store.read_of_shown hs.shown] at hanswer hstore
  have hkept : (e.device (.read ⟨l, w⟩) (n, s)).2.2.store = s.store.writeAll [] := hstore
  have hready :=
    hs.faultFree.ready (hs.reachable.access e _ n) (e.device_faults _ n s) hkept hs.healthy hs.shown
  exact ⟨_, ⟨hready, congrArg Store.registers hstore⟩, Prod.ext hanswer rfl⟩

namespace Switch

/-- What can happen around a switch: a link of its chip changes, or the switch is asked for something. -/
inductive Event where
  | link (x : LinkChange)
  | operation (op : Operation)
  deriving DecidableEq, Repr

def Event.change? : Event → Option LinkChange
  | .link x => some x
  | .operation _ => none

/-- The event is the change of a port that the chip has, or no raw register write. -/
def Event.Fits (chip : Chip) : Event → Prop
  | .link x => x.port < chip.numPorts
  | .operation op => op.isRaw = false

instance (chip : Chip) : DecidablePred (Event.Fits chip) := fun
  | .link x => inferInstanceAs (Decidable (x.port < chip.numPorts))
  | .operation op => inferInstanceAs (Decidable (op.isRaw = false))

/-- The switch and its simulated chip after an event. -/
def happen (e : Engine) (s : Config × Nat × Simulation) : Event → Config × Nat × Simulation
  | .link x => (s.1, s.2.1, s.2.2.relink x)
  | .operation op => (layer.device e.device op s).2

/-- A switch that runs on a chip without faults, which shows the changes of its links so far. -/
structure Watches (chip : Chip) (changes : List LinkChange) (s : Config × Nat × Simulation) : Prop where
  wellFormed : s.1.WellFormed
  found : s.1.chip = chip
  ready : s.2.2.Ready chip
  shows : chip.ShowsLatest changes s.2.2.store.registers

/-- A chip without faults on which a switch can be brought up, and which shows the changes
    of its links so far. -/
structure Awaits (chip : Chip) (changes : List LinkChange) (s : Simulation) : Prop where
  reachable : s.Reachable
  faultFree : s.FaultFree
  found : s.store.chip = some chip
  identifies : s.store.Identifies chip
  retries : s.store.zeroIdReads < 10
  shows : chip.ShowsLatest changes s.store.registers

section
variable {e : Engine} {chip : Chip} {changes : List LinkChange}

theorem Watches.happen (he : e.Attached) {s : Config × Nat × Simulation} (h : Watches chip changes s)
    {event : Event}
    (hfits : event.Fits chip) : Watches chip (changes ++ event.change?.toList) (happen e s event) := by
  obtain ⟨c, n, s⟩ := s
  obtain ⟨hwell, rfl, hready, hshows⟩ := h
  cases event with
  | link x => exact ⟨hwell, rfl, hready.relink x, hshows.relink hfits (Simulation.relinked hready.chip x)⟩
  | operation op =>
    -- What an operation writes is none of the status registers, so the changes so far still show.
    have hconfig : (layer.device e.device op (c, n, s)).2.1 = op.after c := config_eq_after _ _ _ _
    have hidentity : (layer.device e.device op (c, n, s)).2.1.identity = c.identity := by
      rw [hconfig, identity_after]
    rw [show Event.change? (.operation op) = none from rfl, Option.toList_none, List.append_nil]
    refine ⟨hconfig ▸ hwell.after op, congrArg Identity.chip hidentity, ready_perform hwell he hready hfits n,
      hshows.of_status fun l hl => ?_⟩
    rw [Switch.happen, store_perform hwell he hready hfits n]
    exact Store.registers_writeAll_outside _ (fun w hw => location_writes hwell hw)
      (c.chip.statusRegisters_disjoint l hl).1

theorem Watches.run (he : e.Attached) {s : Config × Nat × Simulation} (h : Watches chip changes s)
    {events : List Event} (hfits : ∀ event ∈ events, event.Fits chip) :
    Watches chip (changes ++ events.filterMap Event.change?) (events.foldl (Switch.happen e) s) := by
  induction events generalizing s changes with
  | nil => exact (List.append_nil changes).symm ▸ h
  | cons event events ih =>
    obtain ⟨hevent, hrest⟩ := List.forall_mem_cons.mp hfits
    have hrun := ih (h.happen he hevent) hrest
    have hchanges : (event :: events).filterMap Event.change? = event.change?.toList ++
        events.filterMap Event.change? := by
      cases event <;> rfl
    rwa [List.append_assoc, ← hchanges] at hrun

theorem Awaits.relink {s : Simulation} (h : Awaits chip changes s) {x : LinkChange}
    (hx : x.port < chip.numPorts) :
    Awaits chip (changes ++ [x]) (s.relink x) := by
  have hrelinked := Simulation.relinked h.found x
  refine ⟨h.reachable.relink x, h.faultFree.relink x, h.found, ?_, h.retries, h.shows.relink hx hrelinked⟩
  rw [Store.Identifies, hrelinked.others _ (by decide), hrelinked.others _ (by decide)]
  exact h.identifies

theorem Awaits.relinks {s : Simulation} (h : Awaits chip changes s) {more : List LinkChange}
    (hmore : ∀ x ∈ more, x.port < chip.numPorts) :
    Awaits chip (changes ++ more) (more.foldl Simulation.relink s) := by
  induction more generalizing s changes with
  | nil => exact (List.append_nil changes).symm ▸ h
  | cons x more ih =>
    obtain ⟨hx, hmore⟩ := List.forall_mem_cons.mp hmore
    have hrun := ih (h.relink hx) hmore
    rwa [List.append_assoc, List.singleton_append] at hrun

/-- Bringing a switch up writes none of the status registers. -/
theorem Awaits.register {s : Simulation} (h : Awaits chip changes s) (he : e.Attached) (n : Nat) :
    ∃ c t, runOn e.device Switch.register (n, s) = (.ok c, t) ∧ Watches chip changes (c, t) := by
  obtain ⟨t, hup, hready, -, -⟩ := register_ready he h.reachable h.faultFree h.found h.identifies h.retries n
  refine ⟨_, t, hup, .initial _, rfl, hready, h.shows.of_status fun l hl => ?_⟩
  have hstore := (device_register he h.faultFree h.found h.identifies (Nat.le_of_lt_succ h.retries) n).2
  rw [hup] at hstore
  rw [hstore]
  exact Store.registers_writeAll_outside { s.store with zeroIdReads := 0 } (fun w hw => location_reset hw)
    (chip.statusRegisters_disjoint l hl).2

/-- On a chip that was just powered up, whatever links change before and after the switch is
    brought up and whatever the switch is asked for in between, the link of each port is told as
    the last change of that port left it. -/
theorem portLink_follows_changes (he : e.Attached) {m : Model} (hchip : m.chip? = some chip)
    (hfaults : m.faults = {})
    (hzero : m.zeroIdReads < 10) {before : List LinkChange} (hbefore : ∀ x ∈ before, x.port < chip.numPorts)
    {events : List Event} (hevents : ∀ event ∈ events, event.Fits chip) (n : Nat) :
    ∃ c t, runOn e.device register (n, before.foldl Simulation.relink (.new m)) = (.ok c, t) ∧
      ∀ port, port ≤ chip.lastPhyPort →
        (layer.device e.device (.portLink port) (events.foldl (happen e) (c, t))).1 =
          .ok (chip.family.told port (LinkChange.latest? port (before ++ events.filterMap Event.change?))) := by
  have hfree : (Simulation.new m).FaultFree := by
    refine ⟨?_, ?_, ?_⟩ <;> simp only [Simulation.new, Model.store, hfaults]
  have hnew : Awaits chip [] (.new m) :=
    ⟨Simulation.reachable_new m, hfree, hchip, Model.identifies hchip, hzero, fun port _ => BitVec.getLsbD_zero⟩
  obtain ⟨c, t, hup, hwatches⟩ := (hnew.relinks hbefore).register he n
  refine ⟨c, t, hup, fun port hport => ?_⟩
  have hend := hwatches.run he hevents
  generalize events.foldl (happen e) (c, t) = u at hend ⊢
  obtain ⟨c', t'⟩ := u
  obtain ⟨-, rfl, hready, hlatest⟩ := hend
  rw [device_portLink (tells_engine he _) hport ⟨hready, rfl⟩]
  have hlow := Chip.lt_of_le_lastPhyPort hport
  exact (hlatest port hlow).linkOf_eq hlow

/-- On a BCM5325E port 1 goes up with 1000 Mbit/s before the switch is there, and stays up while port 2 comes
    and goes and the switch is reset. -/
theorem portLink_follows_changes_flapping :
    let before : List LinkChange := [⟨1, true, .mbps1000, .full⟩]
    let events : List Event :=
      [.link ⟨2, true, .mbps10, .half⟩, .operation (.setVlanEnabled true), .operation .applyConfig,
      .link ⟨2, false, .mbps100, .full⟩, .operation .resetSwitch]
    ∃ c t, runOn Engine.spi.device register (0, before.foldl Simulation.relink (.new (.ofChip .bcm5325E))) =
      (.ok c, t) ∧
      (layer.device Engine.spi.device (.portLink 0) (events.foldl (happen .spi) (c, t))).1 = .ok (.down 0) ∧
      (layer.device Engine.spi.device (.portLink 1) (events.foldl (happen .spi) (c, t))).1 =
        .ok ⟨1, true, .mbps100, .full⟩ ∧
      (layer.device Engine.spi.device (.portLink 2) (events.foldl (happen .spi) (c, t))).1 = .ok (.down 2) := by
  intro before events
  have hbefore : ∀ x ∈ before, x.port < Chip.bcm5325E.numPorts := by decide
  have hevents : ∀ event ∈ events, event.Fits .bcm5325E := by decide
  obtain ⟨c, t, hup, hlinks⟩ :=
    portLink_follows_changes (e := .spi) (m := .ofChip .bcm5325E) trivial rfl rfl (by decide)
    hbefore hevents 0
  exact ⟨c, t, hup, hlinks 0 (by decide), hlinks 1 (by decide), hlinks 2 (by decide)⟩

end

end Switch

end EtherSwitch
