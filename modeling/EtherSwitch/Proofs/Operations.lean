import EtherSwitch.Proofs.Mistaken
import EtherSwitch.Proofs.Retry
import EtherSwitch.Proofs.Runs

/-! What the operations of a switch do to a chip without faults. Each one but a raw register write is a list
    of writes to the store, the same over both engines (`Switch.store_perform`), so what every list of
    writes keeps, a run of operations keeps (`Switch.serve_ready`). -/

namespace EtherSwitch
open Script

/-! ### Engines and scripts -/

/-- A chip without faults that shows its id. -/
structure Simulation.Ready (chip : Chip) (s : Simulation) : Prop where
  reachable : s.Reachable
  faultFree : s.FaultFree
  chip : s.store.chip = some chip
  shown : s.store.zeroIdReads = 0

theorem Simulation.Ready.healthy {chip : Chip} {s : Simulation} (h : s.Ready chip) : s.store.Healthy chip :=
  ⟨h.chip, h.faultFree.forwards⟩

theorem Simulation.FaultFree.ready {s u : Simulation} (hs : s.FaultFree) (hu : u.Reachable)
    (hfaults : u.faults = s.faults)
    {t : Store} {ws : List RegisterWrite} (hstore : u.store = t.writeAll ws) {chip : Chip} (ht : t.Healthy chip)
    (hzero : t.zeroIdReads = 0) : u.Ready chip := by
  refine ⟨hu, ⟨hfaults ▸ hs.completes, hfaults ▸ hs.acknowledges, ?_⟩, ?_, ?_⟩
  · rw [hstore, Store.forwardStuck_writeAll, ht.forwards]
  · rw [hstore, Store.chip_writeAll, ht.chip]
  · rw [hstore, Store.zeroIdReads_writeAll, hzero]

namespace Engine
variable {α : Type} {e : Engine} {s : Simulation}

/-- A read only reads the store, also one that the bus interface gets in the way of. -/
theorem device_read_onlyRead (he : e.Attached) (a : Address) (n : Nat) (s : Simulation) :
    s.store.OnlyRead (e.device (.read a) (n, s)).2.2.store := by
  cases e with
  | mdio settings =>
    obtain ⟨m, u, hu, hstore, -, -⟩ := PseudoPhy.device_read he a n s
    rw [device, across, hu, hstore]
    exact (Store.onlyRead_refl _).read _
  | spi =>
    have hallow : SpiFrames.Allows fun c => ∀ u, s.store.OnlyRead u.store →
        s.store.OnlyRead (Simulation.spi c u).2.store :=
      ⟨fun _ _ hu => hu, fun _ hu => hu, fun i hi u hu => (Simulation.spi_store.data i hi u).symm ▸ hu,
        fun _ _ hu => hu⟩
    have htouch : ∀ u : Simulation, s.store.OnlyRead u.store →
        s.store.OnlyRead
          (Simulation.spi (.transfer [SpiFrames.readCommand, a.location.offset] 1) u).2.store := by
      intro u hu
      simp only [Simulation.spi, SpiPort.transfer, SpiPort.readByte, if_true]
      split
      · exact hu
      · split
        · exact hu
        · exact hu.read _
    have hkeep : ∀ (c : SpiBus.Call) (u : Simulation),
        (∀ u, s.store.OnlyRead u.store → s.store.OnlyRead (Simulation.spi c u).2.store) →
        s.store.OnlyRead u.store → s.store.OnlyRead (Simulation.spi c u).2.store := fun _ u h => h u
    refine Program.device_keeps (l := SpiFrames.layer) (K := fun u : Simulation => s.store.OnlyRead u.store)
      hkeep (.read a) () ?_
      (Store.onlyRead_refl _)
    exact (SpiFrames.uses_read hallow htouch).calls.bind fun _ => trivial

theorem reachable_device (e : Engine) (faults : Faults) (c : Registers.Call) (u : Nat × Simulation) (_ : True)
    (hu : u.2.Reachable ∧ u.2.faults = faults) :
    (e.device c u).2.2.Reachable ∧ (e.device c u).2.2.faults = faults :=
  ⟨hu.1.access e c u.1, (device_faults e c u.1 u.2).trans hu.2⟩

end Engine

/-! ### Scripts of the operations -/

theorem uses_setManaged {P : Registers.Call → Prop}
    (h : ∀ c : Registers.Call, c.address.location = Layout.switchMode → P c)
    (on : Bool) : Script.Uses P (setManaged on false) :=
  (uses_read8 (h _ rfl)).bind fun _ => uses_write (h _ rfl)

theorem does_setManaged (on : Bool) (s : Store) :
    Store.Does (setManaged on false) s ()
      [⟨Layout.switchMode, (withManaged on ((s.registers Layout.switchMode).setWidth 8)).setWidth 64⟩] := by
  have hwrite : ∀ mode : BitVec 8, write8 Layout.switchMode (withManaged on mode) =
      emit [.bits8 Layout.switchMode (withManaged on mode)] := fun mode => write8_eq _ _
  refine (Store.does_read8 (by decide)).bind
    (?_ : Store.Does (write8 Layout.switchMode (withManaged on _)) s () _)
  rw [hwrite, ← Put.taken_bits8]
  exact Store.does_emit [_]

section
variable {P : Registers.Call → Prop}
  (h : ∀ l ∈ Layout.statusRegisters, ∀ w, P (.read ⟨l, w⟩))
include h

omit h in
theorem uses_checkLinkPort (chip : Chip) (port : UInt8) {α : Type} {p : Script α} (hp : Script.Uses P p) :
    Script.Uses P (do checkLinkPort chip port; p) := by
  rcases checkLinkPort chip port with e | _
  · exact .done (.error e)
  · exact hp

theorem uses_portLink (c : Config) (port : UInt8) : Script.Uses P (Switch.portLink c port) := by
  have hdecode : ∀ link speed duplex, Script.Uses P (liftM (PortLink.decode port link speed duplex)) := by
    intro link speed duplex
    rcases PortLink.decode port link speed duplex with e | l
    · exact .done (.error e)
    · exact .done (.ok l)
  have hlink : Script.Uses P (read16 Layout.linkStatus) := uses_read16 (h _ (by decide) _)
  rw [Switch.portLink]
  cases c.chip.family with
  | fastEthernet =>
    exact uses_checkLinkPort _ _
      (hlink.bind fun _ => (uses_read16 (h Layout.speedStatus (by decide) _)).bind fun _ =>
      (uses_read16 (h Layout.duplexFast (by decide) _)).bind fun _ => hdecode _ _ _)
  | gigabit =>
    have hspeed : Script.Uses P (read32 Layout.speedStatus) :=
      (uses_read (h _ (by decide) _)).bind fun _ => .done _
    exact uses_checkLinkPort _ _ (hlink.bind fun _ => hspeed.bind fun _ =>
      (uses_read16 (h Layout.duplexGigabit (by decide) _)).bind fun _ => hdecode _ _ _)

theorem uses_portLinks (c : Config) : Script.Uses P (Switch.portLinks c) :=
  .mapM fun port _ => uses_portLink h c port

end

/-! ### Operations -/

namespace Switch

/-- A raw register write. -/
def Operation.isRaw : Operation → Bool
  | .writeRegister _ _ => true
  | _ => false

/-- The operations that only look, at the configuration or at registers. -/
def Operation.looks : Operation → Bool
  | .config | .portPvid _ | .vlanPorts _ | .portLink _ | .portLinks | .readRegister _ => true
  | _ => false

/-- What a reset writes: the chip's baseline and then the default configuration. -/
def resetWrites (c : Config) (s : Store) : List RegisterWrite :=
  let reset := (c.chip.resetPuts s).map Put.taken
  reset ++ (c.clear.puts (((s.writeAll reset).registers Layout.switchMode).setWidth 8)).map Put.taken

/-- What an operation writes, given the configuration and the store. -/
def Operation.writes : Operation → Config → Store → List RegisterWrite
  | .applyConfig, c, s => (c.puts ((s.registers Layout.switchMode).setWidth 8)).map Put.taken
  | .resetSwitch, c, s => resetWrites c s
  | .setManaged on, _, s =>
    [⟨Layout.switchMode, (withManaged on ((s.registers Layout.switchMode).setWidth 8)).setWidth 64⟩]
  | _, _, _ => []

section
variable {c : Config} {e : Engine} {s : Simulation}

theorem uses_resetSwitch (c : Config) :
    Script.Uses Engine.Plain (do c.clear.chip.family.reset c.clear.chip; applyConfig c.clear) :=
  (uses_reset_plain c.clear.chip).seq (uses_applyConfig (.initial c.identity))

/-- This is so on any chip that lets forwarding be enabled, also on one that was taken for another. -/
theorem does_resetSwitch_of_forwards {s : Store} (hs : s.forwardStuck = false) :
    Store.Does (do c.clear.chip.family.reset c.clear.chip; applyConfig c.clear) s () (resetWrites c s) := by
  have hreset : Store.Does (c.clear.chip.family.reset c.clear.chip) s () ((c.chip.resetPuts s).map Put.taken) :=
    does_reset fun _ => hs
  exact hreset.bind (does_applyConfig (.initial c.identity) _)

theorem does_resetSwitch {s : Store} (hs : s.Healthy c.chip) :
    Store.Does (do c.clear.chip.family.reset c.clear.chip; applyConfig c.clear) s () (resetWrites c s) :=
  does_resetSwitch_of_forwards hs.forwards

/-- An operation that only looks makes no access but reads. -/
theorem calls_of_looks {op : Operation} (hop : op.looks = true) (c : Config) :
    Program.Calls (fun call : Registers.Call => ∃ a, call = .read a) ((layer op).run c) := by
  cases op with
  | config => trivial
  | portPvid port => exact calls_look _
  | vlanPorts index => exact calls_look _
  | portLink port => exact calls_script (uses_portLink (fun l _ w => ⟨⟨l, w⟩, rfl⟩) c port)
  | portLinks => exact calls_script (uses_portLinks (fun l _ w => ⟨⟨l, w⟩, rfl⟩) c)
  | readRegister a => exact calls_script (uses_read ⟨a, rfl⟩)
  | _ => cases hop

/-- Looking only reads the store, whatever else is wrong with the chip. -/
theorem device_looks (he : e.Attached) {op : Operation} (hop : op.looks = true) (c : Config) (n : Nat)
    (s : Simulation) :
    s.store.OnlyRead (layer.device e.device op (c, n, s)).2.2.2.store ∧
      (layer.device e.device op (c, n, s)).2.2.2.faults = s.faults := by
  refine Program.device_keeps (l := layer)
    (K := fun u : Nat × Simulation => s.store.OnlyRead u.2.store ∧ u.2.faults = s.faults) ?_ op c
      (calls_of_looks hop c)
    (s := (n, s)) ⟨Store.onlyRead_refl _, rfl⟩
  rintro _ u ⟨a, rfl⟩ ⟨hstore, hfaults⟩
  exact ⟨hstore.trans (Engine.device_read_onlyRead he a u.1 u.2),
    (Engine.device_faults e _ u.1 u.2).trans hfaults⟩

/-- Every operation but a raw register write makes its writes to the store, whichever engine reaches it and
    whatever chip it is; beyond that it only reads. -/
theorem onlyRead_perform (hc : c.WellFormed) (he : e.Attached) (hs : s.Reachable) (hfree : s.FaultFree)
    {op : Operation} (hop : op.isRaw = false) (n : Nat) :
    (s.store.writeAll (op.writes c s.store)).OnlyRead (layer.device e.device op (c, n, s)).2.2.2.store := by
  have hdoes : ∀ {f : Config → Script Unit} {c' : Config} {ws : List RegisterWrite},
      Script.Uses Engine.Plain (f c') →
      Store.Does (f c') s.store () ws →
      (s.store.writeAll ws).OnlyRead (Program.run e.device ((script f).run.run c') (n, s)).2.2.store :=
    fun hf hd => by
    rw [run_script, (Engine.runOn_does he hs hfree hf hd n).2]
    exact Store.onlyRead_refl _
  have hchange : ∀ f : Config → Except Error Config,
      s.store.OnlyRead (Program.run e.device ((change f).run.run c) (n, s)).2.2.store := fun f => by
    rw [run_change]
    exact Store.onlyRead_refl _
  cases op with
  | setVlanEnabled on => exact Store.onlyRead_refl _
  | setVlanBase base => exact hchange _
  | setPortPvid port vid => exact hchange _
  | setVlanPorts index members => exact hchange _
  | applyConfig => exact hdoes (uses_applyConfig hc) (does_applyConfig hc _)
  | resetSwitch =>
    exact hdoes (f := fun c => do c.chip.family.reset c.chip; applyConfig c) (uses_resetSwitch c)
      (does_resetSwitch_of_forwards hfree.forwards)
  | setManaged on =>
    have hplain : ∀ call : Registers.Call, call.address.location = Layout.switchMode →
        Engine.Plain call := fun call hcall => by
      rw [Engine.Plain, hcall]
      decide
    exact hdoes (f := fun _ => EtherSwitch.setManaged on false) (uses_setManaged hplain on)
      (does_setManaged on _)
  | writeRegister a value => cases hop
  | config | portPvid port | vlanPorts index | portLink port | portLinks | readRegister a =>
    exact (device_looks he rfl c n s).1

theorem faultFree_perform (hc : c.WellFormed) (he : e.Attached) (hs : s.Reachable) (hfree : s.FaultFree)
    {op : Operation} (hop : op.isRaw = false) (n : Nat) :
    (layer.device e.device op (c, n, s)).2.2.2.Reachable ∧
      (layer.device e.device op (c, n, s)).2.2.2.FaultFree := by
  obtain ⟨hreachable, hfaults⟩ :=
    Program.device_keeps (l := layer) (e.reachable_device s.faults) op c (Program.calls_true _)
    (s := (n, s)) ⟨hs, rfl⟩
  obtain ⟨k, -, hstore⟩ := onlyRead_perform hc he hs hfree hop n
  refine ⟨hreachable, hfaults ▸ hfree.completes, hfaults ▸ hfree.acknowledges, ?_⟩
  rw [hstore]
  exact (Store.forwardStuck_writeAll _ _).trans hfree.forwards

/-- On a chip that shows its id, that is all. -/
theorem store_perform (hc : c.WellFormed) (he : e.Attached) (hs : s.Ready c.chip) {op : Operation}
    (hop : op.isRaw = false)
    (n : Nat) : (layer.device e.device op (c, n, s)).2.2.2.store = s.store.writeAll (op.writes c s.store) :=
  (onlyRead_perform hc he hs.reachable hs.faultFree hop n).eq_of_shown
    ((Store.zeroIdReads_writeAll _ _).trans hs.shown)

theorem ready_perform (hc : c.WellFormed) (he : e.Attached) (hs : s.Ready c.chip) {op : Operation}
    (hop : op.isRaw = false) (n : Nat) : (layer.device e.device op (c, n, s)).2.2.2.Ready c.chip := by
  obtain ⟨hreachable, hfree⟩ := faultFree_perform hc he hs.reachable hs.faultFree hop n
  refine ⟨hreachable, hfree, ?_, ?_⟩
  · rw [store_perform hc he hs hop n, Store.chip_writeAll, hs.chip]
  · rw [store_perform hc he hs hop n, Store.zeroIdReads_writeAll, hs.shown]

/-- What the writes of each operation do to a property of the operations so far and the store, a run does. -/
theorem serve_ready {Q : List Operation → Store → Prop} {chip : Chip} (he : e.Attached)
    (hstep : ∀ done op c t, c.WellFormed → c.chip = chip → t.Healthy chip → Q done t →
      Q (done ++ [op]) (t.writeAll (op.writes c t)))
    (before : List Operation) {ops : List Operation} (hops : ∀ op ∈ ops, op.isRaw = false) (n : Nat)
    (hc : c.WellFormed) (hchip : c.chip = chip) (hs : s.Ready chip) (hQ : Q before s.store) :
    (serve e.device ops (c, n, s)).1.WellFormed ∧ (serve e.device ops (c, n, s)).2.2.Ready chip ∧
      Q (before ++ ops) (serve e.device ops (c, n, s)).2.2.store := by
  induction ops generalizing c n s before with
  | nil => exact ⟨hc, hs, (List.append_nil before).symm ▸ hQ⟩
  | cons op ops ih =>
    have hop := hops op List.mem_cons_self
    subst hchip
    have hnext : (layer.device e.device op (c, n, s)).2 =
        (op.after c, (layer.device e.device op (c, n, s)).2.2) := Prod.ext (config_eq_after _ _ _ _) rfl
    have hready := ready_perform hc he hs hop n
    have hmore := hstep before op c s.store hc rfl hs.healthy hQ
    rw [← store_perform hc he hs hop n] at hmore
    have hrun := ih (before ++ [op]) (fun op' hop' => hops op' (List.mem_cons_of_mem op hop'))
      (layer.device e.device op (c, n, s)).2.2.1
      (hc.after op) (congrArg Identity.chip (identity_after op c)) hready hmore
    rw [serve, List.foldl_cons, hnext]
    rwa [List.append_assoc, List.singleton_append] at hrun

/-! ### Where operations write -/

theorem location_writes (hc : c.WellFormed) {op : Operation} {s : Store} {w : RegisterWrite}
    (hw : w ∈ op.writes c s) :
    w.location ∈ c.chip.writtenRegisters := by
  cases op with
  | applyConfig => exact List.mem_append_left _ (hc.location_puts hw)
  | resetSwitch =>
    rcases List.mem_append.mp hw with hw | hw
    · rcases List.mem_append.mp (location_reset hw) with hw | hw
      · refine List.mem_append_left _ (List.mem_append_left _ ?_)
        rcases List.mem_cons.mp hw with hw | hw
        · exact List.mem_append_left _ (List.mem_append_left _ (hw ▸ by decide))
        · exact List.mem_append_right _ hw
      · exact List.mem_append_right _ hw
    · exact List.mem_append_left _ ((Config.WellFormed.initial c.identity).location_puts hw)
  | setManaged on =>
    have hmode : w.location = Layout.switchMode := congrArg RegisterWrite.location (List.mem_singleton.mp hw)
    rw [hmode]
    exact List.mem_append_left _
      (List.mem_append_left _ (List.mem_append_left _ (List.mem_append_left _ (by decide))))
  | _ => cases hw

end

/-! ### A switch that was just brought up -/

section
variable {e : Engine} {s : Simulation} {chip : Chip}

/-- Bringing a switch up succeeds, and the chip then shows its id and tells the same about itself. -/
theorem register_ready (he : e.Attached) (hs : s.Reachable) (hfree : s.FaultFree)
    (hchip : s.store.chip = some chip)
    (hid : s.store.Identifies chip) (hzero : s.store.zeroIdReads < 10) (n : Nat) :
    ∃ t, runOn e.device register (n, s) = (.ok (.initial (s.store.identity chip)), t) ∧ t.2.Ready chip ∧
      t.2.store.Identifies chip ∧ ∀ x, t.2.store.identity x = s.store.identity x := by
  obtain ⟨hanswer, hstore⟩ := device_register he hfree hchip hid (Nat.le_of_lt_succ hzero) n
  obtain ⟨hreachable, hfaults⟩ :=
    Program.run_keeps (e.reachable_device s.faults) (Program.calls_true register.run)
    (s := (n, s)) ⟨hs, rfl⟩
  obtain ⟨hid', hsame⟩ := Store.Identifies.prefix (s := { s.store with zeroIdReads := 0 }) hid List.prefix_rfl
  refine ⟨_, Prod.ext hanswer rfl, hfree.ready hreachable hfaults hstore ⟨hchip, hfree.forwards⟩ rfl, ?_,
    fun x => ?_⟩
  · rwa [hstore]
  · rw [hstore]
    exact congrArg (fun identity : Identity => Identity.mk x identity.revision) hsame

end

end Switch

end EtherSwitch
