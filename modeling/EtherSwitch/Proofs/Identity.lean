import EtherSwitch.Proofs.Operations

/-! What a switch is found to be once more after it has served operations. No operation writes the registers
    for the id and the revision. VLAN control 4, which tells the fast Ethernet chips apart after power-up, is
    also a VLAN control, so that those chips lose their name when the controls are set
    (`Switch.register_after_serve`). -/

namespace EtherSwitch
open Script

/-! ### Names -/

/-- The chip that the id registers name, before or after the VLAN controls were set. -/
def Chip.named (chip : Chip) (controlled : Bool) : Chip :=
  if controlled ∧ chip.family = .fastEthernet then .bcm5325M else chip

namespace Chip

theorem family_ofVlanControl4 (value : BitVec 8) : (ofVlanControl4 value).family = .fastEthernet := by
  unfold ofVlanControl4
  split
  · rfl
  · split <;> rfl

theorem family_ofId8? {id : BitVec 8} {chip : Chip} (h : ofId8? id = some chip) : chip.family = .gigabit := by
  unfold ofId8? at h
  split at h
  · exact Option.some.inj h ▸ rfl
  · split at h
    · exact Option.some.inj h ▸ rfl
    · split at h
      · exact Option.some.inj h ▸ rfl
      · cases h

theorem family_ofId16? {id : BitVec 16} {chip : Chip} (h : ofId16? id = some chip) :
    chip.family = .gigabit := by
  unfold ofId16? at h
  split at h
  · exact Option.some.inj h ▸ rfl
  · split at h
    · exact Option.some.inj h ▸ rfl
    · cases h

/-- VLAN control 4 only tells one fast Ethernet chip from another. -/
theorem ofIds?_cases {id : BitVec 16} {control : BitVec 8} {chip : Chip} (h : ofIds? id control = some chip) :
    (chip.family = .fastEthernet ∧ ∀ control', ofIds? id control' = some (ofVlanControl4 control')) ∨
      (chip.family = .gigabit ∧ ∀ control', ofIds? id control' = some chip) := by
  unfold ofIds? at h
  split at h
  case isTrue hshared =>
    obtain rfl := Option.some.inj h
    exact Or.inl ⟨family_ofVlanControl4 control, fun _ => if_pos hshared⟩
  case isFalse hshared =>
    refine Or.inr ⟨?_, fun _ => (if_neg hshared).trans h⟩
    rcases Option.or_eq_some_iff.mp h with h | ⟨-, h⟩
    · exact family_ofId8? h
    · exact family_ofId16? h

/-- With the VLAN controls set, the id registers of a fast Ethernet chip name the BCM5325M. -/
theorem ofIds?_controlled {id : BitVec 16} {control control' : BitVec 8} {chip : Chip}
    (h : ofIds? id control = some chip)
    (hset : control' = 0 ∨ control' = 0x40) : ofIds? id control' = some (chip.named true) := by
  rcases ofIds?_cases h with ⟨hfamily, hname⟩ | ⟨hfamily, hname⟩
  · rw [hname, named, if_pos ⟨rfl, hfamily⟩]
    rcases hset with rfl | rfl <;> rfl
  · rw [hname, named, if_neg fun hfast => by rw [hfamily] at hfast; cases hfast.2]

end Chip

/-! ### Operations -/

namespace Switch

/-- The operations that set the VLAN controls. -/
def Operation.controls : Operation → Bool
  | .applyConfig | .resetSwitch => true
  | _ => false

section
variable {c : Config} {s : Store}

theorem registers_writes_of_id (hc : c.WellFormed) (op : Operation) {l : Location}
    (hl : l ∈ [Layout.deviceId, Layout.coreRevision]) :
    (s.writeAll (op.writes c s)).registers l = s.registers l := by
  refine Store.registers_writeAll_outside s (fun w hw => location_writes hc hw) ?_
  have hall : ∀ l ∈ [Layout.deviceId, Layout.coreRevision], l ∉ c.chip.writtenRegisters := by
    cases c.chip <;> decide
  exact hall l hl

/-- An operation that sets the VLAN controls puts VLAN control 4 to one of two values, the others leave it. -/
theorem control4_writes (hc : c.WellFormed) (hs : s.Healthy c.chip) (op : Operation) :
    (op.controls = true → (s.writeAll (op.writes c s)).registers Layout.vlanControl4 = 0 ∨
      (s.writeAll (op.writes c s)).registers Layout.vlanControl4 = 0x40) ∧
    (op.controls = false → (s.writeAll (op.writes c s)).registers Layout.vlanControl4 =
      s.registers Layout.vlanControl4) := by
  have hmode : ∀ {on : Bool} {s t : Store}, Config.ModeSet on s t →
      t.registers Layout.vlanControl4 = 0 ∨ t.registers Layout.vlanControl4 = 0x40 := by
    intro on s t h
    rw [h.control4]
    cases on with
    | true => exact Or.inr rfl
    | false => exact Or.inl rfl
  cases op with
  | applyConfig =>
    refine ⟨fun _ => hmode (hc.modeSet_puts hs.forwards), fun h => ?_⟩
    cases h
  | resetSwitch =>
    refine ⟨fun _ => ?_, fun h => ?_⟩
    · have hclear : (c.clear).WellFormed := .initial c.identity
      have hreset := hclear.modeSet_puts (hs.writeAll ((c.chip.resetPuts s).map Put.taken)).forwards
      rw [← Store.writeAll_append] at hreset
      exact hmode hreset
    · cases h
  | setManaged on =>
    have hne : Layout.vlanControl4 ≠ Layout.switchMode := by decide
    refine ⟨fun h => ?_, fun _ => Store.registers_write_of_ne hne⟩
    cases h
  | _ =>
    refine ⟨fun h => ?_, fun _ => rfl⟩
    cases h

/-- What an operation makes of the name of the chip. -/
theorem identifies_writes (hc : c.WellFormed) (hs : s.Healthy c.chip) {controlled : Bool}
    (hid : s.Identifies (c.chip.named controlled)) (op : Operation) :
    (s.writeAll (op.writes c s)).Identifies (c.chip.named (controlled || op.controls)) := by
  have hdevice : (s.writeAll (op.writes c s)).registers Layout.deviceId = s.registers Layout.deviceId :=
    registers_writes_of_id hc op (.head _)
  obtain ⟨hset, hkept⟩ := control4_writes hc hs op
  rw [Store.Identifies, hdevice]
  cases hop : op.controls with
  | true =>
    have htwice : (c.chip.named controlled).named true = c.chip.named true := by
      cases controlled <;> cases c.chip <;> rfl
    rw [Bool.or_true, ← htwice]
    refine Chip.ofIds?_controlled hid ?_
    rcases hset hop with h | h
    · exact Or.inl (h ▸ rfl)
    · exact Or.inr (h ▸ rfl)
  | false =>
    rw [Bool.or_false, hkept hop]
    exact hid

end

section
variable {e e' : Engine} {s : Simulation} {chip : Chip} {c : Config}

/-- The name and the revision of the chip after a run of operations. -/
theorem identifies_serve (he : e.Attached) {ops : List Operation} (hops : ∀ op ∈ ops, op.isRaw = false)
    (hc : c.WellFormed) {t : Nat × Simulation} (ht : t.2.Ready c.chip) (hid : t.2.store.Identifies c.chip) :
    (serve e.device ops (c, t)).2.2.Ready c.chip ∧
      (serve e.device ops (c, t)).2.2.store.Identifies (c.chip.named (ops.any Operation.controls)) ∧
      ∀ x, (serve e.device ops (c, t)).2.2.store.identity x = t.2.store.identity x := by
  refine (serve_ready he ?_ [] hops t.1 hc rfl ht ⟨hid, fun _ => rfl⟩
    (Q := fun done u => u.Identifies (c.chip.named (done.any Operation.controls)) ∧
      ∀ x, u.identity x = t.2.store.identity x)).2
  rintro done op c' u hc' hchip hu ⟨hname, hsame⟩
  rw [← hchip] at hu hname ⊢
  rw [List.any_append, List.any_cons, List.any_nil, Bool.or_false]
  refine ⟨identifies_writes hc' hu hname op, fun x => ?_⟩
  rw [← hsame, Store.identity, registers_writes_of_id hc' op (.tail _ (.head _))]
  rfl

/-- What a switch is found to be after a run of operations. -/
theorem register_of_ready (he : e.Attached) (he' : e'.Attached) {ops : List Operation}
    (hops : ∀ op ∈ ops, op.isRaw = false)
    (hc : c.WellFormed) {t : Nat × Simulation} (ht : t.2.Ready c.chip) (hid : t.2.store.Identifies c.chip)
    (m : Nat) :
    (runOn e'.device register (m, (serve e.device ops (c, t)).2.2)).1 =
      .ok (.initial (t.2.store.identity (c.chip.named (ops.any Operation.controls)))) := by
  obtain ⟨hready, hname, hsame⟩ := identifies_serve he hops hc ht hid
  obtain ⟨hanswer, -⟩ :=
    Engine.runOn_mirrors_of_read (s := (m, (serve e.device ops (c, t)).2.2)) (p := register) rfl
    (uses_register.mono fun _ => he'.serves hready.faultFree) rfl rfl
  rw [runOn_register_as hready.faultFree.forwards hname (hready.shown ▸ Nat.zero_le _)] at hanswer
  rw [hanswer, hsame]

/-- Bringing a switch up again after any operations but raw register writes succeeds and tells the same
    revision and the same chip, except that a fast Ethernet chip whose VLAN controls were set on the way
    passes for a BCM5325M. -/
theorem register_after_serve (he : e.Attached) (he' : e'.Attached) (hs : s.Reachable) (hfree : s.FaultFree)
    (hchip : s.store.chip = some chip) (hid : s.store.Identifies chip) (hzero : s.store.zeroIdReads < 10)
    {n : Nat} {t : Nat × Simulation} (hup : runOn e.device register (n, s) = (.ok c, t)) {ops : List Operation}
    (hops : ∀ op ∈ ops, op.isRaw = false) (m : Nat) :
    c.identity = s.store.identity chip ∧
      (runOn e'.device register (m, (serve e.device ops (c, t)).2.2)).1 =
        .ok (.initial { c.identity with chip := chip.named (ops.any Operation.controls) }) := by
  obtain ⟨u, hanswer, hready, hid', hsame⟩ := register_ready he hs hfree hchip hid hzero n
  obtain ⟨hconfig, rfl⟩ := Prod.mk.inj (hup.symm.trans hanswer)
  obtain rfl := Except.ok.inj hconfig
  refine ⟨rfl, (register_of_ready he he' hops (.initial (s.store.identity chip)) hready hid' m).trans ?_⟩
  rw [hsame]
  rfl

/-- A BCM5325E of revision 2 that gives zero for its id three times first. -/
def shy : Simulation := .new { Model.ofChip .bcm5325E with revision := 2, zeroIdReads := 3 }

theorem shy_identifies : shy.store.Identifies .bcm5325E :=
  Model.identifies (m := { Model.ofChip .bcm5325E with revision := 2, zeroIdReads := 3 }) rfl

theorem register_shy (he : e.Attached) :
    ∃ t, runOn e.device register (0, shy) = (.ok (.initial ⟨.bcm5325E, 2⟩), t) ∧
    t.2.Ready .bcm5325E ∧ t.2.store.Identifies .bcm5325E ∧ ∀ x, t.2.store.identity x = ⟨x, 2⟩ :=
  register_ready he (Simulation.reachable_new _) ⟨rfl, rfl, rfl⟩ rfl shy_identifies (by decide) 0

theorem register_after_serve_shy :
    ∃ t, runOn (Engine.mdio {}).device register (0, shy) = (.ok (.initial ⟨.bcm5325E, 2⟩), t) ∧
      (runOn Engine.spi.device register (0,
        (serve (Engine.mdio {}).device [.setManaged true, .portLinks, .resetSwitch]
        (.initial ⟨.bcm5325E, 2⟩, t)).2.2)).1 = .ok (.initial ⟨.bcm5325M, 2⟩) := by
  have hattached : (Engine.mdio {}).Attached := rfl
  have hother : Engine.spi.Attached := trivial
  have hops : ∀ op ∈ [Operation.setManaged true, .portLinks, .resetSwitch], op.isRaw = false := by decide
  obtain ⟨t, hup, -⟩ := register_shy hattached
  obtain ⟨-, hfound⟩ := register_after_serve hattached hother (Simulation.reachable_new _) ⟨rfl, rfl, rfl⟩ rfl
    shy_identifies (by decide) hup hops 0
  exact ⟨t, hup, hfound⟩

/-- Applying the default configuration is enough for that: the chip is not found under its name any more. -/
theorem applyConfig_hides_shy :
    Engine.spi.Attached ∧ shy.Reachable ∧ shy.FaultFree ∧ shy.store.chip = some .bcm5325E ∧
      shy.store.zeroIdReads < 10 ∧
      ∃ t, runOn Engine.spi.device register (0, shy) = (.ok (.initial ⟨.bcm5325E, 2⟩), t) ∧
        (runOn Engine.spi.device register
          (0, (serve Engine.spi.device [.applyConfig] (.initial ⟨.bcm5325E, 2⟩, t)).2.2)).1 =
          .ok (.initial ⟨.bcm5325M, 2⟩) := by
  have hattached : Engine.spi.Attached := trivial
  have hops : ∀ op ∈ [Operation.applyConfig], op.isRaw = false := by decide
  obtain ⟨t, hup, hready, hid, hsame⟩ := register_shy hattached
  refine ⟨hattached, Simulation.reachable_new _, ⟨rfl, rfl, rfl⟩, rfl, by decide, t, hup, ?_⟩
  refine (register_of_ready hattached hattached hops (.initial ⟨.bcm5325E, 2⟩) hready hid 0).trans ?_
  rw [hsame]
  rfl

end

end Switch

end EtherSwitch
