import EtherSwitch.Proofs.Operations

/-! Forwarding, managed mode and the VLAN controls follow the calls. Three operations share the switch mode
    register and two of them also set the VLAN controls. Whatever comes in between, each of these is what the
    latest operation that concerns it made of it (`Switch.modes_follow_calls`). -/

namespace EtherSwitch
open Script

/-- The switch mode register. -/
def Store.mode (s : Store) : BitVec 8 := (s.registers Layout.switchMode).setWidth 8

/-- The VLAN controls, and what they hold while VLANs are enforced. -/
def Layout.enforcedControls : List (Location × BitVec 64) :=
  [(vlanControl0, 0xe0), (vlanControl1, 0x0e), (vlanControl4, 0x40), (vlanControl5, 0x08)]

theorem getLsbD_withManaged (on : Bool) (mode : BitVec 8) (i : Nat) :
    (withManaged on mode).getLsbD i = if i = 0 then on else mode.getLsbD i := by
  have hbit : ∀ i, Layout.managed.getLsbD i = decide (i = 0) := fun i => by
    simp [Layout.managed, BitVec.getLsbD_one]
  cases on <;> by_cases hi : i = 0 <;> simp [withManaged, hbit, hi]
  exact fun h => BitVec.lt_of_getLsbD h

theorem getLsbD_withForwarding (mode : BitVec 8) (i : Nat) :
    (withForwarding mode).getLsbD i = if i = 0 then false else if i = 1 then true else mode.getLsbD i := by
  have hbit : ∀ i, Layout.forwarding.getLsbD i = decide (i = 1) := by
    intro i
    by_cases hi : i < 8
    · revert i
      decide
    · rw [BitVec.getLsbD_of_ge _ _ (Nat.le_of_not_lt hi)]
      exact (decide_eq_false (by omega)).symm
  rw [show withForwarding mode = withManaged false mode ||| Layout.forwarding from rfl, BitVec.getLsbD_or,
    getLsbD_withManaged, hbit]
  by_cases h0 : i = 0 <;> by_cases h1 : i = 1 <;> simp [h0, h1]

theorem and_forwarding_eq_zero_iff {mode : BitVec 8} : mode &&& Layout.forwarding = 0 ↔
    mode.getLsbD 1 = false := by
  revert mode
  decide

/-! ### Following -/

namespace Store

/-- Store `t` came from `s` by what wanted `managed` of managed mode and `enforced` of the VLAN controls,
    if anything. -/
structure Follows (managed enforced : Option Bool) (s t : Store) : Prop where
  managed : t.mode.getLsbD 0 = managed.getD (s.mode.getLsbD 0)
  forwarding : s.mode.getLsbD 1 = true → t.mode.getLsbD 1 = true
  rest : ∀ i, 2 ≤ i → t.mode.getLsbD i = s.mode.getLsbD i
  controls : ∀ x ∈ Layout.enforcedControls,
    t.registers x.1 = enforced.elim (s.registers x.1) fun on => if on then x.2 else 0

section
variable {s t u : Store} {managed managed' enforced enforced' : Option Bool}

theorem Follows.refl (s : Store) : Follows none none s s := ⟨rfl, id, fun _ _ => rfl, fun _ _ => rfl⟩

theorem Follows.trans (h : Follows managed enforced s t) (h' : Follows managed' enforced' t u) :
    Follows (managed'.or managed) (enforced'.or enforced) s u where
  managed := by
    rw [h'.managed, h.managed]
    cases managed' <;> rfl
  forwarding := h'.forwarding ∘ h.forwarding
  rest i hi := (h'.rest i hi).trans (h.rest i hi)
  controls x hx := by
    rw [h'.controls x hx, h.controls x hx]
    cases enforced' <;> rfl

theorem Follows.onlyRead (h : Follows managed enforced s t) (ht : t.OnlyRead u) :
    Follows managed enforced s u := by
  obtain ⟨k, -, rfl⟩ := ht
  exact ⟨h.managed, h.forwarding, h.rest, h.controls⟩

theorem Follows.of_modeSet {on : Bool} (h : Config.ModeSet on s t) : Follows (some on) (some on) s t := by
  have hmode : t.mode = withManaged on s.mode := by
    rw [mode, h.switchMode, narrow_widen (by decide), mode]
  refine ⟨?_, fun hon => ?_, fun i hi => ?_, ?_⟩
  · rw [hmode, getLsbD_withManaged]
    rfl
  · rw [hmode, getLsbD_withManaged]
    exact hon
  · rw [hmode, getLsbD_withManaged, if_neg (by omega)]
  · simp only [Layout.enforcedControls, List.forall_mem_cons, Option.elim]
    exact ⟨h.control0, h.control1, h.control4, h.control5, List.forall_mem_nil _⟩

/-- The switch mode after a reset, which does nothing to it if forwarding is on. -/
theorem mode_writeAll_reset (hs : s.forwardStuck = false) (chip : Chip) :
    (s.writeAll ((chip.resetPuts s).map Put.taken)).mode =
      if s.mode.getLsbD 1 then s.mode else withForwarding s.mode := by
  have hbit : s.mode &&& Layout.forwarding = 0 ↔ s.mode.getLsbD 1 = false := and_forwarding_eq_zero_iff
  split
  case isTrue hon =>
    rw [reset_of_forwarding fun hoff => Bool.false_ne_true ((hbit.mp hoff).symm.trans hon), mode,
      registers_force_of_ne chip s (by decide), mode]
  case isFalse hoff =>
    have hwritten :
        ⟨Layout.switchMode, (withForwarding s.mode).setWidth 64⟩ ∈ (chip.resetPuts s).map Put.taken := by
      rw [taken_reset (hbit.mpr (eq_false_of_ne_true hoff))]
      exact List.mem_append_left _ (.head _)
    rw [mode, registers_writeAll (s.mode_ne_command (by decide)) hs (fun w hw hl => mode_reset hw hl)
      (Or.inl ⟨_, hwritten, rfl⟩), narrow_widen (by decide), mode]

theorem follows_reset (hs : s.forwardStuck = false) (chip : Chip) :
    ∃ managed, Follows managed none s (s.writeAll ((chip.resetPuts s).map Put.taken)) ∧
      (s.writeAll ((chip.resetPuts s).map Put.taken)).mode.getLsbD 1 = true := by
  have hcontrols : ∀ x ∈ Layout.enforcedControls,
      (s.writeAll ((chip.resetPuts s).map Put.taken)).registers x.1 = s.registers x.1 := by
    have hout : ∀ x ∈ Layout.enforcedControls, x.1 ∉ Layout.switchMode :: chip.controlRegisters ++
        [Layout.portOverride] := by
      cases chip <;> decide
    exact fun x hx => registers_writeAll_outside s (fun w hw => location_reset hw) (hout x hx)
  have hmode := mode_writeAll_reset hs chip
  split at hmode
  case isTrue hon =>
    rw [← hmode] at hon
    exact ⟨none, ⟨by rw [hmode]; rfl, fun _ => hon, fun i _ => by rw [hmode], hcontrols⟩, hon⟩
  case isFalse =>
    have hbits : ∀ i, (s.writeAll ((chip.resetPuts s).map Put.taken)).mode.getLsbD i = _ := fun i =>
      hmode ▸ getLsbD_withForwarding s.mode i
    refine ⟨some false, ⟨hbits 0, fun _ => hbits 1, fun i hi => ?_, hcontrols⟩, hbits 1⟩
    rw [hbits, if_neg (by omega), if_neg (by omega)]

end

end Store

namespace Switch

/-! ### What operations want -/

/-- What an operation wants of managed mode, if it concerns it. -/
def Operation.manages : Operation → Config → Option Bool
  | .applyConfig, c => some c.vlanEnabled
  | .resetSwitch, _ => some false
  | .setManaged on, _ => some on
  | _, _ => none

/-- Whether an operation enforces VLANs or gives that up, if it concerns the VLAN controls. -/
def Operation.enforces : Operation → Config → Option Bool
  | .applyConfig, c => some c.vlanEnabled
  | .resetSwitch, _ => some false
  | _, _ => none

/-- What the latest operation wants that wants anything, each of them with the configuration of its time. -/
def latest (want : Operation → Config → Option Bool) : Config → List Operation → Option Bool
  | _, [] => none
  | c, op :: ops => (latest want (op.after c) ops).or (want op c)

section
variable {c : Config} {e : Engine}

theorem follows_writes (hc : c.WellFormed) {s : Store} (hs : s.forwardStuck = false) (op : Operation) :
    Store.Follows (op.manages c) (op.enforces c) s (s.writeAll (op.writes c s)) := by
  cases op with
  | applyConfig => exact .of_modeSet (hc.modeSet_puts hs)
  | resetSwitch =>
    have hclear : c.clear.WellFormed := .initial c.identity
    obtain ⟨managed, hreset, -⟩ := Store.follows_reset hs c.chip
    have hstuck := (Store.forwardStuck_writeAll s ((c.chip.resetPuts s).map Put.taken)).trans hs
    have happly := hreset.trans (.of_modeSet (hclear.modeSet_puts hstuck))
    rwa [← Store.writeAll_append] at happly
  | setManaged on =>
    have hmode : (s.write Layout.switchMode ((withManaged on s.mode).setWidth 64)).mode =
        withManaged on s.mode := by
      rw [Store.mode, Store.registers_write_self (s.mode_ne_command (by decide)) hs, narrow_widen (by decide)]
    have hcontrols : ∀ x ∈ Layout.enforcedControls, x.1 ≠ Layout.switchMode := by decide
    refine ⟨?_, fun hon => ?_, fun i hi => ?_, fun x hx => Store.registers_write_of_ne (hcontrols x hx)⟩
    · exact (congrArg (BitVec.getLsbD · 0) hmode).trans (getLsbD_withManaged on s.mode 0)
    · exact (congrArg (BitVec.getLsbD · 1) hmode).trans ((getLsbD_withManaged on s.mode 1).trans hon)
    · refine (congrArg (BitVec.getLsbD · i) hmode).trans ((getLsbD_withManaged on s.mode i).trans (if_neg ?_))
      omega
  | _ => exact .refl s

/-- Along a run every operation adds what it wants, with the configuration that it finds. -/
theorem follows_serve (hc : c.WellFormed) (he : e.Attached) {s : Simulation} (hs : s.Reachable)
    (hfree : s.FaultFree) {ops : List Operation} (hops : ∀ op ∈ ops, op.isRaw = false) (n : Nat) :
    Store.Follows (latest Operation.manages c ops) (latest Operation.enforces c ops) s.store
      (serve e.device ops (c, n, s)).2.2.store := by
  induction ops generalizing c n s with
  | nil => exact .refl s.store
  | cons op ops ih =>
    obtain ⟨hop, hrest⟩ := List.forall_mem_cons.mp hops
    obtain ⟨hreachable, hfree'⟩ := faultFree_perform hc he hs hfree hop n
    have hstep := (follows_writes hc hfree.forwards op).onlyRead (onlyRead_perform hc he hs hfree hop n)
    have hnext : (layer.device e.device op (c, n, s)).2 =
        (op.after c, (layer.device e.device op (c, n, s)).2.2) := Prod.ext (config_eq_after _ _ _ _) rfl
    rw [serve, List.foldl_cons, hnext]
    exact hstep.trans (ih (hc.after op) hreachable hfree' hrest (layer.device e.device op (c, n, s)).2.2.1)

/-- Bringing a switch up that succeeds leaves forwarding on, whatever chip it found. -/
theorem follows_register (he : e.Attached) {s : Simulation} (hs : s.Reachable) (hfree : s.FaultFree) {n : Nat}
    {t : Nat × Simulation} (hup : runOn e.device register (n, s) = (.ok c, t)) :
    t.2.Reachable ∧ t.2.FaultFree ∧ t.2.store.mode.getLsbD 1 = true ∧
      ∃ managed, Store.Follows managed none s.store t.2.store := by
  obtain ⟨hanswer, hend⟩ := Engine.runOn_mirrors (s := (n, s)) (uses_register.mono fun _ => he.serves hfree)
    ⟨rfl, rfl, Or.inr hs.settled⟩
  have hkept :=
    Program.run_keeps (e.reachable_device s.faults) (Program.calls_true register.run) (s := (n, s)) ⟨hs, rfl⟩
  rw [hup] at hanswer hend
  rw [show Program.run e.device register.run (n, s) = (.ok c, t) from hup] at hkept
  have hrun : runOn Store.device register s.store = (.ok c, t.2.store) := Prod.ext hanswer.symm hend.store.symm
  obtain ⟨identity, u, hprobe, hreset⟩ := ok_of_runOn_bind hrun
  have hread : s.store.OnlyRead u := by
    have hpasses := Program.passes_end Store.device probe.run s.store
    rw [show Program.run Store.device probe.run s.store = (.ok identity, u) from hprobe] at hpasses
    exact passes_probe hpasses
  have hstuck : u.forwardStuck = false := by
    obtain ⟨k, -, rfl⟩ := hread
    exact hfree.forwards
  have hdoes :
      runOn Store.device (do identity.chip.family.reset identity.chip; return Config.initial identity) u =
      (.ok (Config.initial identity), u.writeAll ((identity.chip.resetPuts u).map Put.taken)) := by
    rw [runOn_bind_ok (does_reset fun _ => hstuck).run]
    rfl
  have hstore : t.2.store = u.writeAll ((identity.chip.resetPuts u).map Put.taken) :=
    congrArg Prod.snd (hreset.symm.trans hdoes)
  obtain ⟨managed, hfollows, hon⟩ := Store.follows_reset hstuck identity.chip
  rw [← hstore] at hfollows hon
  refine ⟨hkept.1, ⟨hkept.2 ▸ hfree.completes, hkept.2 ▸ hfree.acknowledges, ?_⟩, hon, managed, ?_⟩
  · rw [hstore, Store.forwardStuck_writeAll, hstuck]
  · have hboth := ((Store.Follows.refl s.store).onlyRead hread).trans hfollows
    rwa [Option.or_none] at hboth

/-- After any operations but raw register writes, forwarding is on, the upper bits of the switch mode are those
    from before the switch was brought up, and managed mode is what the latest operation that concerns it made
    of it. Once an operation has set the VLAN controls, they are as the latest one that sets them left them. -/
theorem modes_follow_calls (he : e.Attached) {s : Simulation} (hs : s.Reachable) (hfree : s.FaultFree) {n : Nat}
    {t : Nat × Simulation} (hup : runOn e.device register (n, s) = (.ok c, t)) {ops : List Operation}
    (hops : ∀ op ∈ ops, op.isRaw = false) :
    (serve e.device ops (c, t)).2.2.store.mode.getLsbD 1 = true ∧
      (∀ i, 2 ≤ i → (serve e.device ops (c, t)).2.2.store.mode.getLsbD i = s.store.mode.getLsbD i) ∧
      (serve e.device ops (c, t)).2.2.store.mode.getLsbD 0 =
        (latest Operation.manages c ops).getD (t.2.store.mode.getLsbD 0) ∧
      ∀ on, latest Operation.enforces c ops = some on → ∀ x ∈ Layout.enforcedControls,
        (serve e.device ops (c, t)).2.2.store.registers x.1 = if on then x.2 else 0 := by
  obtain ⟨hreachable, hfree', hon, managed, hup'⟩ := follows_register he hs hfree hup
  obtain ⟨identity, -, rfl⟩ := register_eq_ok hup
  have hrun := follows_serve (.initial identity) he hreachable hfree' hops t.1
  refine ⟨hrun.forwarding hon, fun i hi => (hrun.rest i hi).trans (hup'.rest i hi), hrun.managed,
    fun on hlatest x hx => ?_⟩
  have hcontrols := hrun.controls x hx
  rw [hlatest] at hcontrols
  exact hcontrols

/-- A BCM53115 that was left in managed mode with all of its other mode bits set, but not forwarding. -/
def unmanaged : Simulation := (Simulation.new (.ofChip .bcm53115)).setRegister Layout.switchMode 0xfd

/-- Here a change that is refused comes between the operations that set the modes. -/
theorem modes_follow_calls_unmanaged :
    let ops : List Operation := [.setVlanEnabled true, .applyConfig, .setVlanBase 16, .setManaged false]
    (Config.initial ⟨.bcm53115, 0⟩).setVlanBase 16 = .error (.unsupported .vlanBase) ∧
      ∃ t, runOn (Engine.mdio {}).device register (0, unmanaged) = (.ok (.initial ⟨.bcm53115, 0⟩), t) ∧
        (serve (Engine.mdio {}).device ops (.initial ⟨.bcm53115, 0⟩, t)).2.2.store.mode.getLsbD 1 = true ∧
        (serve (Engine.mdio {}).device ops (.initial ⟨.bcm53115, 0⟩, t)).2.2.store.mode.getLsbD 7 = true ∧
        (serve (Engine.mdio {}).device ops (.initial ⟨.bcm53115, 0⟩, t)).2.2.store.mode.getLsbD 0 = false ∧
        (serve (Engine.mdio {}).device ops (.initial ⟨.bcm53115, 0⟩, t)).2.2.store.registers
          Layout.vlanControl0 = 0xe0 := by
  have hattached : (Engine.mdio {}).Attached := rfl
  have hreachable : unmanaged.Reachable := (Simulation.reachable_new _).setRegister _ _
  have hops : ∀ op ∈ [Operation.setVlanEnabled true, .applyConfig, .setVlanBase 16, .setManaged false],
      op.isRaw = false := by
    decide
  have hid : unmanaged.store.Identifies .bcm53115 := Model.identifies (m := .ofChip .bcm53115) rfl
  have hname : unmanaged.store.identity .bcm53115 = ⟨.bcm53115, 0⟩ := rfl
  obtain ⟨t, hup, -⟩ := register_ready hattached hreachable ⟨rfl, rfl, rfl⟩ rfl hid (by decide) 0
  rw [hname] at hup
  obtain ⟨hon, hrest, hmanaged, hcontrols⟩ := modes_follow_calls hattached hreachable ⟨rfl, rfl, rfl⟩ hup hops
  have hmanages : latest Operation.manages (.initial ⟨.bcm53115, 0⟩)
      [.setVlanEnabled true, .applyConfig, .setVlanBase 16, .setManaged false] = some false := rfl
  rw [hmanages] at hmanaged
  have hseven := hrest 7 (by decide)
  have hcontrol := hcontrols true rfl _ (.head _)
  rw [show unmanaged.store.mode.getLsbD 7 = true from rfl] at hseven
  exact ⟨rfl, t, hup, hon, hseven, hmanaged, hcontrol⟩

end

end Switch

end EtherSwitch
