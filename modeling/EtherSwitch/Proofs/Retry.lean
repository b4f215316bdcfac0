import EtherSwitch.Proofs.Engine
import EtherSwitch.Proofs.Registration

/-! Bringing a switch up again after the bus failed on the way. A script that the bus interrupts leaves
    the store somewhere on its way (`Engine.passes_of_faulty`). The next attempt succeeds and makes up for
    the rest (`Switch.register_after_interruption`), but for the port control registers: if it finds
    forwarding on, it leaves them as they are. -/

namespace EtherSwitch
open Script

/-! ### Engines on a failing bus -/

namespace Engine
variable {e : Engine} {faults : Faults}

/-- The registers over the engine's bus, of which calls fail by plan. -/
def faulty : Engine → Device Registers (Nat × Faulty IoError Simulation) :=
  across Simulation.mdio.faulty Simulation.spi.faulty

theorem faulty_faults (e : Engine) (c : Registers.Call) (s : Nat × Faulty IoError Simulation) :
    (e.faulty c s).2.2.device.faults = s.2.device.faults :=
  let K : Simulation → Prop := fun u => u.faults = s.2.device.faults
  across_keeps (K := fun u : Faulty IoError Simulation => K u.device)
    (fun c _ h => Program.faulty_keeps (K := K) (fun u hu => (u.mdio_faults c).trans hu) h)
    (fun c _ h => Program.faulty_keeps (K := K) (fun u hu => (u.spi_faults c).trans hu) h) e c s.1 rfl

/-- An access on a failing bus goes through, or it is refused and the store has seen nothing or all of it. -/
theorem faulty_or_refused (e : Engine) (c : Registers.Call) (n : Nat) (s : Faulty IoError Simulation) :
    ((e.faulty c (n, s)).1 = (e.device c (n, s.device)).1 ∧
        (e.faulty c (n, s)).2.2.device = (e.device c (n, s.device)).2.2) ∨
      ∃ refuse err, Refusable.refusal (I := Registers) c = some refuse ∧ (e.faulty c (n, s)).1 = refuse err ∧
        ((e.faulty c (n, s)).2.2.device.store = s.device.store ∨
          (e.faulty c (n, s)).2.2.device.store = (e.device c (n, s.device)).2.2.store) := by
  cases e with
  | mdio settings =>
    exact Program.device_faulty_or_cut (PseudoPhy.prompt_layer settings c n)
      (PseudoPhy.once_layer (Simulation.mdio_store settings) c n) s
  | spi =>
    exact Program.device_faulty_or_cut (SpiFrames.prompt_layer c)
      (SpiFrames.once_layer Simulation.spi_store c) s

/-- What the chip on a failing bus needs for the next access to go through or to be cut. -/
structure Intact (faults : Faults) (s : Nat × Faulty IoError Simulation) : Prop where
  faults : s.2.device.faults = faults
  settled : s.2.device.mdioPort.Settled

theorem faulty_eq_store_or_cut {c : Registers.Call} (hc : e.Serves faults c)
    {s : Nat × Faulty IoError Simulation} (h : Intact faults s) :
    ((e.faulty c s).1 = (Store.device c s.2.device.store).1 ∧
        (e.faulty c s).2.2.device.store = (Store.device c s.2.device.store).2 ∧
          Intact faults (e.faulty c s).2) ∨
      Program.Cut e.faulty Store.device (fun s => s.2.device.store) c s := by
  obtain ⟨n, s⟩ := s
  obtain ⟨rfl, hsettled⟩ := h
  obtain ⟨hanswer, hstore⟩ := device_eq_store hc (Or.inr (Or.inr hsettled)) n
  rw [← hanswer, ← hstore]
  rcases faulty_or_refused e c n s with ⟨ha, hd⟩ | ⟨refuse, err, hr, ha, hv⟩
  · refine Or.inl ⟨ha, congrArg Simulation.store hd, faulty_faults e c _, ?_⟩
    rw [hd]
    exact settled_device e c n hsettled
  · exact Or.inr ⟨refuse, err, hr, ha, hstore ▸ hv⟩

/-- However the bus fails, a script leaves the store somewhere on its way. -/
theorem passes_of_faulty {α : Type} {p : Script α} (hp : Script.Uses (e.Serves faults) p)
    {s : Nat × Faulty IoError Simulation} (h : Intact faults s) :
    p.run.Passes Store.device s.2.device.store (runOn e.faulty p s).2.2.device.store := by
  rcases Program.run_of_cut (d := e.faulty) (e := Store.device) (K := Intact faults)
    (fun _ _ hc hk => faulty_eq_store_or_cut hc hk) hp.calls hp.prompt h with ⟨-, hstore, -⟩ | ⟨_, -, hpasses⟩
  · rw [runOn, show (Program.run e.faulty p.run s).2.2.device.store = _ from hstore]
    exact Program.passes_end _ _ _
  · exact hpasses

end Engine

/-! ### Resets that end early -/

/-- What forcing the ports' state makes of the register for it. -/
def Chip.forced (chip : Chip) (value : BitVec 64) : BitVec 64 :=
  if chip.hasPortOverride then (value.setWidth 8 ||| Layout.overrideEnable ||| Layout.overrideLink).setWidth 64
    else value

theorem Chip.forced_forced (chip : Chip) (value : BitVec 64) :
    chip.forced (chip.forced value) = chip.forced value := by
  unfold forced
  split
  · rw [narrow_widen (by decide), BitVec.or_assoc (value.setWidth 8), BitVec.or_assoc (_ ||| _),
      BitVec.or_assoc (value.setWidth 8), BitVec.or_self]
  · rfl

namespace Store

/-- From store `s`, forwarding is on in store `t`, some of the port control registers are cleared, and the
    ports' state is forced or not yet. -/
structure Raised (chip : Chip) (cleared : List Location) (s t : Store) : Prop where
  mode :
  t.registers Layout.switchMode = (withForwarding ((s.registers Layout.switchMode).setWidth 8)).setWidth 64
  control : ∀ l ∈ chip.controlRegisters, t.registers l = if l ∈ cleared then 0 else s.registers l
  override : t.registers Layout.portOverride = s.registers Layout.portOverride ∨
    t.registers Layout.portOverride = chip.forced (s.registers Layout.portOverride)
  others : ∀ l, l ∉ Layout.switchMode :: chip.controlRegisters ++ [Layout.portOverride] →
    t.registers l = s.registers l

def force (chip : Chip) (s : Store) : Store :=
  s.writeAll ((chip.forcePuts ((s.registers Layout.portOverride).setWidth 8)).map Put.taken)

section
variable {s t : Store} {chip : Chip} {cleared : List Location}

theorem registers_force_of_ne (chip : Chip) (s : Store) {l : Location} (hl : l ≠ Layout.portOverride) :
    (s.force chip).registers l = s.registers l :=
  registers_writeAll_of_ne s fun _ hw => location_force hw ▸ hl

theorem registers_force (hs : s.Healthy chip) :
    (s.force chip).registers Layout.portOverride = chip.forced (s.registers Layout.portOverride) := by
  rw [force, taken_force, Chip.forced]
  split
  · exact registers_write_self
      (hs.ne_command (chip.resetRegisters_nodup.2 _ (List.mem_append_right _ (.head _)))) hs.forwards
  · rfl

theorem Raised.force (h : Raised chip cleared s t) (ht : t.Healthy chip) :
    Raised chip cleared s (t.force chip) ∧
      (t.force chip).registers Layout.portOverride = chip.forced (s.registers Layout.portOverride) := by
  have hforced : (t.force chip).registers Layout.portOverride =
      chip.forced (s.registers Layout.portOverride) := by
    rw [registers_force ht]
    rcases h.override with hopen | hdone
    · rw [hopen]
    · rw [hdone, Chip.forced_forced]
  refine ⟨⟨?_, fun l hl => ?_, Or.inr hforced, fun l hl => ?_⟩, hforced⟩
  · rw [registers_force_of_ne chip t (by decide), h.mode]
  · rw [registers_force_of_ne chip t fun heq => chip.portOverride_not_mem (List.mem_cons_of_mem _ (heq ▸ hl)),
      h.control l hl]
  · rw [registers_force_of_ne chip t fun heq => hl (List.mem_append_right _ (heq ▸ .head _)), h.others l hl]

/-- Forwarding goes on with the first write of a reset, and port control is cleared register by register. -/
theorem raised_enable (hs : s.Healthy chip) (hcleared : cleared <+: chip.controlRegisters) :
    Raised chip cleared s (s.writeAll
      (⟨Layout.switchMode, (withForwarding ((s.registers Layout.switchMode).setWidth 8)).setWidth 64⟩ ::
        cleared.map (RegisterWrite.mk · 0))) := by
  obtain ⟨mode, hmode⟩ :
    ∃ mode, mode = (withForwarding ((s.registers Layout.switchMode).setWidth 8)).setWidth 64 := ⟨_, rfl⟩
  have hplain := chip.resetRegisters_nodup.2
  have hfirst : Layout.switchMode ∉ chip.controlRegisters :=
    (List.nodup_cons.mp (List.nodup_append.mp chip.resetRegisters_nodup.1).1).1
  have hkept : ∀ l, l ≠ Layout.switchMode → l ∉ cleared →
      ((s.write Layout.switchMode mode).writeAll (cleared.map (RegisterWrite.mk · 0))).registers l =
        s.registers l :=
    fun l hl hc => (registers_zeros_of_not_mem _ hc).trans (registers_write_of_ne hl)
  rw [← hmode, writeAll_cons]
  constructor
  · rw [registers_zeros_of_not_mem _ fun hl => hfirst (hcleared.subset hl), ← hmode]
    exact registers_write_self (hs.ne_command (hplain _ (.head _))) hs.forwards
  · intro l hl
    split
    · next hc =>
      exact (hs.writeAll [⟨Layout.switchMode, mode⟩]).registers_zeros hc
        (hplain l (List.mem_append_left _ (List.mem_cons_of_mem _ hl)))
    · next hc => exact hkept l (fun heq => hfirst (heq ▸ hl)) hc
  · refine Or.inl (hkept _ (by decide) fun hl => ?_)
    exact chip.portOverride_not_mem (List.mem_cons_of_mem _ (hcleared.subset hl))
  · intro l hl
    exact hkept l (fun heq => hl (heq ▸ .head _)) fun hc =>
      hl (List.mem_append_left _ (List.mem_cons_of_mem _ (hcleared.subset hc)))

theorem reset_of_forwarding (h : (s.registers Layout.switchMode).setWidth 8 &&& Layout.forwarding ≠ 0) :
    s.writeAll ((chip.resetPuts s).map Put.taken) = s.force chip := by
  rw [Chip.resetPuts, Chip.enablePuts, if_pos h]
  rfl

theorem taken_reset (h : (s.registers Layout.switchMode).setWidth 8 &&& Layout.forwarding = 0) :
    (chip.resetPuts s).map Put.taken =
      (⟨Layout.switchMode, (withForwarding ((s.registers Layout.switchMode).setWidth 8)).setWidth 64⟩ ::
        chip.controlRegisters.map (RegisterWrite.mk · 0)) ++
      (chip.forcePuts ((s.registers Layout.portOverride).setWidth 8)).map Put.taken := by
  rw [Chip.resetPuts, List.map_append, taken_enable, if_neg fun hon => hon h]

theorem raised_reset (hs : s.Healthy chip)
    (h : (s.registers Layout.switchMode).setWidth 8 &&& Layout.forwarding = 0) :
    Raised chip chip.controlRegisters s (s.writeAll ((chip.resetPuts s).map Put.taken)) ∧
      (s.writeAll ((chip.resetPuts s).map Put.taken)).registers Layout.portOverride =
        chip.forced (s.registers Layout.portOverride) := by
  have hforce := (raised_enable hs (List.prefix_refl chip.controlRegisters)).force (hs.writeAll _)
  have hopen : (s.writeAll
      (⟨Layout.switchMode, (withForwarding ((s.registers Layout.switchMode).setWidth 8)).setWidth 64⟩ ::
        chip.controlRegisters.map (RegisterWrite.mk · 0))).registers Layout.portOverride =
      s.registers Layout.portOverride := by
    have hw := fun w (hw : w ∈ (chip.enablePuts ((s.registers Layout.switchMode).setWidth 8)).map Put.taken) =>
      location_enable hw
    rw [taken_enable, if_neg fun hon => hon h] at hw
    exact registers_writeAll_outside s hw chip.portOverride_not_mem
  rw [force, hopen] at hforce
  rw [taken_reset h, writeAll_append]
  exact hforce

theorem prefix_force {current : BitVec 8} {ws : List RegisterWrite}
    (h : ws <+: (chip.forcePuts current).map Put.taken) :
    ws = [] ∨ ws = (chip.forcePuts current).map Put.taken := by
  rw [taken_force] at h ⊢
  split at h
  · rcases List.prefix_cons_iff.mp h with rfl | ⟨rest, rfl, hrest⟩
    · exact Or.inl rfl
    · rw [List.prefix_nil.mp hrest, if_pos ‹_›]
      exact Or.inr rfl
  · exact Or.inl (List.prefix_nil.mp h)

/-- The first ones of the writes of a reset do nothing, or they turn forwarding on and clear the first ones
    of the port control registers. -/
theorem raised_of_prefix (hs : s.Healthy chip)
    (h : (s.registers Layout.switchMode).setWidth 8 &&& Layout.forwarding = 0)
    {before : List RegisterWrite} (hbefore : before <+: (chip.resetPuts s).map Put.taken) :
    before = [] ∨ ∃ cleared, cleared <+: chip.controlRegisters ∧ Raised chip cleared s (s.writeAll before) := by
  have hreset : (chip.resetPuts s).map Put.taken = _ := taken_reset h
  rw [hreset, List.cons_append] at hbefore
  rcases List.prefix_cons_iff.mp hbefore with rfl | ⟨rest, rfl, hrest⟩
  · exact Or.inl rfl
  refine Or.inr ?_
  rcases List.prefix_append_cases hrest with hclear | ⟨forced, rfl, hforce⟩
  · obtain ⟨cleared, hcleared, rfl⟩ := List.prefix_map_iff.mp hclear
    exact ⟨cleared, hcleared, raised_enable hs hcleared⟩
  · -- Past the port control registers there is at most the write that forces the ports' state.
    refine ⟨_, List.prefix_rfl, ?_⟩
    rcases prefix_force hforce with rfl | rfl
    · rw [List.append_nil]
      exact raised_enable hs List.prefix_rfl
    · rw [← List.cons_append, ← hreset]
      exact (raised_reset hs h).1

theorem Raised.forwarding (h : Raised chip cleared s t) :
    (t.registers Layout.switchMode).setWidth 8 &&& Layout.forwarding ≠ 0 := by
  rw [h.mode, narrow_widen (by decide)]
  exact forwarding_withForwarding _

/-- Bringing up store `broken`, which a first attempt on `s` left behind, ends in store `retried`, doing it
    on `s` in one go ends in `whole`. -/
structure Resumed (chip : Chip) (s broken retried whole : Store) : Prop where
  others : ∀ l, l ∉ chip.controlRegisters → retried.registers l = whole.registers l
  whole : ∀ l ∈ chip.controlRegisters, whole.registers l = 0
  off : (broken.registers Layout.switchMode).setWidth 8 &&& Layout.forwarding = 0 →
    ∀ l ∈ chip.controlRegisters, retried.registers l = 0
  /-- If forwarding was on already, the rest of the port control registers is not cleared any more. -/
  on : (broken.registers Layout.switchMode).setWidth 8 &&& Layout.forwarding ≠ 0 →
    ∃ cleared, cleared <+: chip.controlRegisters ∧ ∀ l ∈ chip.controlRegisters,
      broken.registers l = (if l ∈ cleared then 0 else s.registers l) ∧ retried.registers l = broken.registers l

/-- A reset makes up for an earlier one that ended early, but for port control once forwarding is on. -/
theorem resumed_reset (hs : s.Healthy chip)
    (h : (s.registers Layout.switchMode).setWidth 8 &&& Layout.forwarding = 0)
    {k : Nat} {before : List RegisterWrite} (hbefore : before <+: (chip.resetPuts s).map Put.taken)
    {broken : Store} (hbroken : broken = writeAll { s with zeroIdReads := k } before) :
    Resumed chip s broken (writeAll { broken with zeroIdReads := 0 } ((chip.resetPuts broken).map Put.taken))
      (writeAll { s with zeroIdReads := 0 } ((chip.resetPuts s).map Put.taken)) := by
  have healthy : ∀ j, Healthy chip { s with zeroIdReads := j } := fun _ => ⟨hs.chip, hs.forwards⟩
  obtain ⟨hwhole, hforced⟩ := raised_reset (healthy 0) h
  have hcleared : ∀ l ∈ chip.controlRegisters,
      (writeAll { s with zeroIdReads := 0 } ((chip.resetPuts s).map Put.taken)).registers l = 0 := fun l hl =>
    (hwhole.control l hl).trans (if_pos hl)
  rcases raised_of_prefix (healthy k) h hbefore with rfl | ⟨cleared, hprefix, hraised⟩
  · subst hbroken
    exact ⟨fun _ _ => rfl, hcleared, fun _ => hcleared, fun hon => absurd h hon⟩
  · -- Forwarding is on, so the next attempt does no more than force the ports' state.
    have hstore : broken.Healthy chip := hbroken ▸ (healthy k).writeAll before
    rw [← hbroken] at hraised
    have hopen : Raised chip cleared s { broken with zeroIdReads := 0 } :=
      ⟨hraised.mode, hraised.control, hraised.override, hraised.others⟩
    obtain ⟨hretried, hforced'⟩ := hopen.force ⟨hstore.chip, hstore.forwards⟩
    rw [← reset_of_forwarding hopen.forwarding] at hretried hforced'
    refine ⟨fun l hl => ?_, hcleared, fun hoff => absurd hoff hraised.forwarding,
      fun _ => ⟨cleared, hprefix, fun l hl => ?_⟩⟩
    · by_cases hmode : l = Layout.switchMode
      · rw [hmode]
        exact hretried.mode.trans hwhole.mode.symm
      by_cases hports : l = Layout.portOverride
      · rw [hports]
        exact hforced'.trans hforced.symm
      have hout : l ∉ Layout.switchMode :: chip.controlRegisters ++ [Layout.portOverride] := by
        simp [hmode, hl, hports]
      exact (hretried.others l hout).trans (hwhole.others l hout).symm
    · exact ⟨hraised.control l hl, (hretried.control l hl).trans (hraised.control l hl).symm⟩

end

end Store

/-! ### Bringing up again -/

theorem uses_reset_plain (chip : Chip) : Script.Uses Engine.Plain (chip.family.reset chip) := by
  have hplain : ∀ l ∈ Layout.switchMode :: chip.controlRegisters, l.offset ∉ SpiFrames.reserved := by
    cases chip <;> decide
  refine uses_reset (fun c hc => hplain _ hc) fun _ c hc => ?_
  rw [Engine.Plain, hc]
  decide

theorem Store.Identifies.prefix {s : Store} {chip : Chip} (h : s.Identifies chip) {before : List RegisterWrite}
    (hbefore : before <+: (chip.resetPuts s).map Put.taken) :
    (s.writeAll before).Identifies chip ∧ (s.writeAll before).identity chip = s.identity chip := by
  have hkept : ∀ l ∈ [Layout.deviceId, Layout.vlanControl4, Layout.coreRevision],
      (s.writeAll before).registers l = s.registers l := fun l hl =>
    registers_writeAll_outside s (fun w hw => location_reset (hbefore.subset hw))
      (chip.idRegisters_disjoint l hl)
  rw [Identifies, identity, hkept _ (.head _), hkept _ (.tail _ (.head _)),
    hkept _ (.tail _ (.tail _ (.head _)))]
  exact ⟨h, rfl⟩

namespace Switch
variable {chip : Chip} {s : Simulation}

theorem uses_register : Script.Uses Engine.Plain register := by
  have hplain : ∀ l ∈ [Layout.deviceId, Layout.vlanControl4, Layout.coreRevision],
      l.offset ∉ SpiFrames.reserved := by decide
  exact (uses_probe fun l hl w => hplain l hl).bind fun identity =>
    (uses_reset_plain identity.chip).seq (.done _)

/-- Bringing a switch up does on the chip what it does on the store, even if data registers were left loaded. -/
theorem device_register {e : Engine} (he : e.Attached) (hfree : s.FaultFree) (hchip : s.store.chip = some chip)
    (hid : s.store.Identifies chip) (hzero : s.store.zeroIdReads ≤ idRetries) (n : Nat) :
    (runOn e.device register (n, s)).1 = .ok (Config.initial (s.store.identity chip)) ∧
      (runOn e.device register (n, s)).2.2.store =
        Store.writeAll { s.store with zeroIdReads := 0 } ((chip.resetPuts s.store).map Put.taken) := by
  obtain ⟨hanswer, hend⟩ := Engine.runOn_mirrors_of_read (s := (n, s)) (p := register) rfl
    (uses_register.mono fun _ => he.serves hfree) rfl rfl
  rw [runOn_register ⟨hchip, hfree.forwards⟩ hid hzero] at hanswer hend
  exact ⟨hanswer, hend.store⟩

/-- However the bus interrupts bringing a switch up, the next attempt over any engine succeeds, and with the
    same configuration as one attempt in one go. The registers are then the same but for port control, which
    is cleared only as far as the first attempt had come if that one had turned forwarding on. -/
theorem register_after_interruption {e₁ e₂ e₃ : Engine} (he₁ : e₁.Attached) (he₂ : e₂.Attached)
    (he₃ : e₃.Attached)
    (hs : s.Reachable) (hfree : s.FaultFree) (hchip : s.store.chip = some chip) (hid : s.store.Identifies chip)
    (hzero : s.store.zeroIdReads < 10)
    (hoff : (s.store.registers Layout.switchMode).setWidth 8 &&& Layout.forwarding = 0)
    {plan : FaultPlan IoError} {n₁ : Nat} {err : Error} {u : Nat × Faulty IoError Simulation}
    (hcut : runOn e₁.faulty register (n₁, .start plan s) = (.error err, u)) (n₂ n₃ : Nat) :
    ∃ config, (runOn e₂.device register (n₂, u.2.device)).1 = .ok config ∧
      (runOn e₃.device register (n₃, s)).1 = .ok config ∧
      Store.Resumed chip s.store u.2.device.store (runOn e₂.device register (n₂, u.2.device)).2.2.store
        (runOn e₃.device register (n₃, s)).2.2.store := by
  have hstore : s.store.Healthy chip := ⟨hchip, hfree.forwards⟩
  have huses : Script.Uses (e₁.Serves s.faults) register := uses_register.mono fun _ => he₁.serves hfree
  obtain ⟨hwhole, hend⟩ := device_register he₃ hfree hchip hid (Nat.le_of_lt_succ hzero) n₃
  have hpasses := Engine.passes_of_faulty huses (s := (n₁, .start plan s)) ⟨rfl, hs.settled⟩
  rw [hcut] at hpasses
  obtain ⟨k, hk, before, hbefore, hbroken⟩ := passes_register hstore hid (Nat.le_of_lt_succ hzero) hpasses
  -- The next attempt begins with a read, so the data registers that this one left loaded do not matter.
  have hfaults : u.2.device.faults = s.faults := by
    have hkept := Program.run_keeps (d := e₁.faulty) (K := fun v => v.2.device.faults = s.faults)
      (fun c v _ hv => (Engine.faulty_faults e₁ c v).trans hv) register.run.calls_true
        (s := (n₁, .start plan s)) rfl
    rwa [show Program.run e₁.faulty register.run (n₁, .start plan s) = _ from hcut] at hkept
  obtain ⟨hid', hsame⟩ := Store.Identifies.prefix (s := { s.store with zeroIdReads := k }) hid hbefore
  have hhealthy : u.2.device.store.Healthy chip :=
    hbroken ▸ Store.Healthy.writeAll (s := { s.store with zeroIdReads := k }) ⟨hchip, hfree.forwards⟩ before
  have hretries : u.2.device.store.zeroIdReads ≤ idRetries := by
    rw [hbroken, Store.zeroIdReads_writeAll]
    exact Nat.le_trans hk (Nat.le_of_lt_succ hzero)
  rw [← hbroken] at hid' hsame
  obtain ⟨hagain, hend'⟩ := device_register (s := u.2.device) he₂
    ⟨hfaults ▸ hfree.completes, hfaults ▸ hfree.acknowledges, hhealthy.forwards⟩ hhealthy.chip hid' hretries n₂
  rw [hsame] at hagain
  rw [hend, hend']
  exact ⟨_, hagain, hwhole, Store.resumed_reset hstore hoff hbefore hbroken⟩

/-! A port that was held back stays so if the bus fails right after forwarding went on. -/

/-- A chip whose first port is held back. -/
def heldBack : Simulation := (Simulation.new (.ofChip .bcm5395)).setRegister (Layout.portControl 0) 0xff

/-- Bringing it up while the bus fails from the fifteenth call on. -/
def cutShort : Except Error Config × Nat × Faulty IoError Simulation :=
  runOn Engine.spi.faulty register (0, .start (.after 14 .injected) heldBack)

theorem heldBack_reachable : heldBack.Reachable := (Simulation.reachable_new _).setRegister _ _

theorem heldBack_faultFree : heldBack.FaultFree := ⟨rfl, rfl, rfl⟩

theorem register_after_cutShort :
    cutShort = (.error (.io .injected), cutShort.2) ∧
    ∃ config, (runOn (Engine.mdio {}).device register (0, cutShort.2.2.device)).1 = .ok config ∧
      (runOn Engine.spi.device register (0, heldBack)).1 = .ok config ∧
      Store.Resumed .bcm5395 heldBack.store cutShort.2.2.device.store
        (runOn (Engine.mdio {}).device register (0, cutShort.2.2.device)).2.2.store
        (runOn Engine.spi.device register (0, heldBack)).2.2.store := by
  have hcut : cutShort = (.error (.io .injected), cutShort.2) := rfl
  have hid : heldBack.store.Identifies .bcm5395 := Model.identifies (m := .ofChip .bcm5395) rfl
  exact ⟨hcut, register_after_interruption (show Engine.spi.Attached from trivial)
    (show (Engine.mdio {}).Attached from rfl)
    (show Engine.spi.Attached from trivial) heldBack_reachable heldBack_faultFree rfl hid
      (by decide) rfl hcut 0 0⟩

/-- The second attempt leaves the port held back, where one attempt that goes through frees it. -/
theorem register_leaves_heldBack :
    Engine.spi.Attached ∧ heldBack.Reachable ∧ heldBack.FaultFree ∧ heldBack.store.chip = some .bcm5395 ∧
      heldBack.store.Identifies .bcm5395 ∧ heldBack.store.zeroIdReads < 10 ∧
      (heldBack.store.registers Layout.switchMode).setWidth 8 &&& Layout.forwarding = 0 ∧
      cutShort.1 = .error (.io .injected) ∧
      (runOn Engine.spi.device register (0, cutShort.2.2.device)).1 = .ok (.initial ⟨.bcm5395, 0⟩) ∧
      (runOn Engine.spi.device register (0, cutShort.2.2.device)).2.2.store.registers (Layout.portControl 0) =
        0xff ∧
      (runOn Engine.spi.device register (0, heldBack)).2.2.store.registers (Layout.portControl 0) = 0 :=
  ⟨trivial, heldBack_reachable, heldBack_faultFree, rfl,
    Model.identifies (m := .ofChip .bcm5395) rfl, by decide, rfl, rfl, rfl, rfl, rfl⟩

end Switch

end EtherSwitch
