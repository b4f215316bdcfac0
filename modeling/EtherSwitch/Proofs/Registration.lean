import EtherSwitch.Proofs.Programming
import EtherSwitch.Simulation

/-! Bringing a switch up on a store whose id registers name a chip. The probe only reads, and finds the chip
    if the id shows in time (`runOn_probe`); the reset that follows is a list of writes
    (`does_reset`). -/

namespace EtherSwitch
open Script

/-- The id registers name the chip. -/
def Store.Identifies (s : Store) (chip : Chip) : Prop :=
  Chip.ofIds? ((s.registers Layout.deviceId).setWidth 16)
    ((s.registers Layout.vlanControl4).setWidth 8) = some chip

/-- The identity of a chip with the revision that the store tells. -/
def Store.identity (s : Store) (chip : Chip) : Identity :=
  ⟨chip, UInt8.ofBitVec ((s.registers Layout.coreRevision).setWidth 8)⟩

/-- A chip that was just powered up tells which one it is. -/
theorem Model.identifies {m : Model} {chip : Chip} (h : m.store.chip = some chip) :
    m.store.Identifies chip := by
  have hid : (m.store.registers Layout.deviceId).setWidth 16 = m.deviceId := narrow_widen (by decide) _
  have hcontrol : (m.store.registers Layout.vlanControl4).setWidth 8 = m.vlanControl4 :=
    narrow_widen (by decide) _
  rw [Store.Identifies, hid, hcontrol]
  exact h

/-! ### Probing -/

section
variable {s : Store} {chip : Chip}

/-- The id shows if zeros come before it on fewer reads than are made. -/
theorem runOn_readDeviceId {retries : Nat} (h : s.zeroIdReads ≤ retries) :
    runOn Store.device (readDeviceId retries) s =
      (.ok ((s.registers Layout.deviceId).setWidth 8), { s with zeroIdReads := 0 }) := by
  have hshown : ∀ t : Store, t.zeroIdReads = 0 → runOn Store.device (read8 Layout.deviceId) t =
      (.ok ((t.registers Layout.deviceId).setWidth 8), { t with zeroIdReads := 0 }) := by
    intro t ht
    rw [Store.runOn_read8, Store.read_of_shown ht, ← ht]
  induction retries generalizing s with
  | zero => exact hshown s (Nat.le_zero.mp h)
  | succ retries ih =>
    rw [readDeviceId]
    cases hzero : s.zeroIdReads with
    | zero =>
      rw [runOn_bind_ok (hshown s hzero)]
      split
      · exact ih (Nat.zero_le _)
      · rfl
    | succ k =>
      have hread : runOn Store.device (read8 Layout.deviceId) s = (.ok 0, { s with zeroIdReads := k }) := by
        rw [Store.runOn_read8, Store.read, if_pos ⟨rfl, by omega⟩, hzero]
        rfl
      rw [runOn_bind_ok hread, if_pos rfl, ih (by show k ≤ retries; omega)]

theorem runOn_resolveChip (hid : s.Identifies chip) (hzero : s.zeroIdReads = 0) :
    runOn Store.device (resolveChip ((s.registers Layout.deviceId).setWidth 8)) s = (.ok chip, s) := by
  have hnarrow : ((s.registers Layout.deviceId).setWidth 16).setWidth 8 =
      (s.registers Layout.deviceId).setWidth 8 :=
    BitVec.setWidth_setWidth_of_le _ (by decide)
  rw [Store.Identifies, Chip.ofIds?, hnarrow] at hid
  rw [resolveChip]
  by_cases hshared : Chip.isSharedId ((s.registers Layout.deviceId).setWidth 8) = true
  · rw [if_pos hshared] at hid ⊢
    rw [runOn_bind_ok (Store.runOn_read8 s _), Store.read_of_ne (by decide), Option.some.inj hid]
    rfl
  · rw [if_neg hshared] at hid ⊢
    cases hnamed : Chip.ofId8? ((s.registers Layout.deviceId).setWidth 8) with
    | some found =>
      rw [hnamed] at hid
      rw [← Option.some.inj hid]
      rfl
    | none =>
      rw [hnamed, Option.none_or] at hid
      have hread := Store.runOn_read16 s Layout.deviceId
      rw [Store.read_of_shown hzero] at hread
      refine (runOn_bind_ok hread).trans ?_
      rw [hid]
      rfl

theorem runOn_probe (hid : s.Identifies chip) (hzero : s.zeroIdReads ≤ idRetries) :
    runOn Store.device probe s = (.ok (s.identity chip), { s with zeroIdReads := 0 }) := by
  have hresolve := runOn_resolveChip (s := { s with zeroIdReads := 0 }) hid rfl
  rw [probe, runOn_bind_ok (runOn_readDeviceId hzero), runOn_bind_ok hresolve,
    runOn_bind_ok (Store.runOn_read8 _ _), Store.read_of_ne (by decide)]
  rfl

theorem uses_readDeviceId {P : Registers.Call → Prop} (h : P (.read ⟨Layout.deviceId, .bits8⟩))
    (retries : Nat) :
    Script.Uses P (readDeviceId retries) := by
  induction retries with
  | zero => exact uses_read8 h
  | succ retries ih => exact (uses_read8 h).bind fun _ => .ite ih (.done _)

theorem uses_probe {P : Registers.Call → Prop}
    (h : ∀ l ∈ [Layout.deviceId, Layout.vlanControl4, Layout.coreRevision], ∀ w, P (.read ⟨l, w⟩)) :
    Script.Uses P probe := by
  have hid := h Layout.deviceId (.head _)
  refine (uses_readDeviceId (hid _) _).bind fun id => .bind ?_ fun chip =>
    (uses_read8 (h Layout.coreRevision (.tail _ (.tail _ (.head _))) _)).bind fun _ => .done _
  refine .ite ((uses_read8 (h Layout.vlanControl4 (.tail _ (.head _)) _)).bind fun _ => .done _) ?_
  cases Chip.ofId8? id with
  | some chip => exact .done _
  | none =>
    refine (uses_read16 (hid _)).bind fun id16 => ?_
    cases Chip.ofId16? id16 with
    | some chip => exact .done _
    | none => exact .done _

/-- A probe only reads. -/
theorem passes_probe {t : Store} (h : probe.run.Passes Store.device s t) : s.OnlyRead t := by
  have hread : Script.Uses (fun c => ∃ a, c = .read a) probe := uses_probe fun l _ w => ⟨⟨l, w⟩, rfl⟩
  refine Program.Passes.keeps (K := s.OnlyRead) ?_ hread.calls h (Store.onlyRead_refl s)
  rintro _ _ ⟨a, rfl⟩ ht
  exact ht.read a.location

end

/-! ### Resetting -/

/-- The switch mode with forwarding on and managed mode off. -/
def withForwarding (mode : BitVec 8) : BitVec 8 := mode &&& ~~~Layout.managed ||| Layout.forwarding

theorem forwarding_withForwarding (mode : BitVec 8) : withForwarding mode &&& Layout.forwarding ≠ 0 :=
  and_ne_zero_of_getLsbD 1 (by simp [withForwarding, Layout.forwarding]) rfl

/-- The writes that turn forwarding on, given the switch mode. -/
def Chip.enablePuts (chip : Chip) (mode : BitVec 8) : List Put :=
  if mode &&& Layout.forwarding ≠ 0 then []
  else .bits8 Layout.switchMode (withForwarding mode) :: clearPuts (portsBelow (chip.lastPhyPort + 1))

/-- The writes that force the ports' state, given the state forced so far. -/
def Chip.forcePuts (chip : Chip) (current : BitVec 8) : List Put :=
  if chip.hasPortOverride
    then [.bits8 Layout.portOverride (current ||| Layout.overrideEnable ||| Layout.overrideLink)] else []

section
variable {s : Store} {chip : Chip}

theorem does_enableForwarding
    (hs : (s.registers Layout.switchMode).setWidth 8 &&& Layout.forwarding = 0 → s.forwardStuck = false) :
    Store.Does (enableForwarding chip) s ()
      ((chip.enablePuts ((s.registers Layout.switchMode).setWidth 8)).map Put.taken) := by
  rw [enableForwarding, Chip.enablePuts]
  refine (Store.does_read8 (by decide)).bind ?_
  show Store.Does _ s () _
  split
  · exact Store.does_pure ()
  · next hoff =>
    have hstays := hs (Decidable.not_not.mp hoff)
    -- The bit is read back after the write; it is there unless the chip is stuck.
    have hmode : ((s.writeAll
        ([Put.bits8 Layout.switchMode (withForwarding ((s.registers Layout.switchMode).setWidth 8))].map
          Put.taken)).registers Layout.switchMode).setWidth 8 =
        withForwarding ((s.registers Layout.switchMode).setWidth 8) := by
      rw [List.map_singleton, Put.taken_bits8]
      show ((s.write Layout.switchMode _).registers Layout.switchMode).setWidth 8 = _
      rw [Store.registers_write_self (Store.mode_ne_command s (by decide)) hstays, narrow_widen (by decide)]
    have hwrite : ∀ mode, write8 Layout.switchMode (mode &&& ~~~Layout.managed ||| Layout.forwarding) =
        emit [.bits8 Layout.switchMode (withForwarding mode)] := fun mode => write8_eq _ _
    rw [hwrite]
    refine (Store.does_emit [_]).bind
      (?_ : Store.Does _ _ () ((clearPuts (portsBelow (chip.lastPhyPort + 1))).map Put.taken))
    refine (Store.does_read8 (by decide)).bind ?_
    rw [hmode]
    simp only [if_neg (forwarding_withForwarding _), clearPortControl_eq]
    exact Store.does_emit _

theorem does_forcePorts (chip : Chip) (s : Store) :
    Store.Does (Gigabit.forcePorts chip) s ()
      ((chip.forcePuts ((s.registers Layout.portOverride).setWidth 8)).map Put.taken) := by
  rw [Gigabit.forcePorts, Chip.forcePuts]
  split
  · refine (Store.does_read8 (by decide)).bind ?_
    rw [write8_eq]
    exact Store.does_emit _
  · exact Store.does_pure ()

/-- The writes of a reset, given the switch mode and the forced state of the ports. -/
def Chip.resetPuts (chip : Chip) (s : Store) : List Put :=
  chip.enablePuts ((s.registers Layout.switchMode).setWidth 8) ++
    chip.forcePuts ((s.registers Layout.portOverride).setWidth 8)

theorem taken_enable (chip : Chip) (mode : BitVec 8) :
    (chip.enablePuts mode).map Put.taken =
      if mode &&& Layout.forwarding ≠ 0 then []
      else ⟨Layout.switchMode, (withForwarding mode).setWidth 64⟩ ::
        chip.controlRegisters.map (RegisterWrite.mk · 0) := by
  rw [Chip.enablePuts]
  split
  · rfl
  · rw [List.map_cons, Put.taken_bits8, taken_clear]

theorem taken_force (chip : Chip) (current : BitVec 8) :
    (chip.forcePuts current).map Put.taken =
      if chip.hasPortOverride then
        [⟨Layout.portOverride, (current ||| Layout.overrideEnable ||| Layout.overrideLink).setWidth 64⟩]
      else [] := by
  rw [Chip.forcePuts]
  split
  · rw [List.map_singleton, Put.taken_bits8]
  · rfl

theorem location_enable {mode : BitVec 8} {w : RegisterWrite} (hw : w ∈ (chip.enablePuts mode).map Put.taken) :
    w.location ∈ Layout.switchMode :: chip.controlRegisters := by
  rw [taken_enable] at hw
  split at hw
  · cases hw
  · rcases List.mem_cons.mp hw with rfl | hw
    · exact List.mem_cons_self
    · obtain ⟨l, hl, rfl⟩ := List.mem_map.mp hw
      exact List.mem_cons_of_mem _ hl

theorem location_force {current : BitVec 8} {w : RegisterWrite}
    (hw : w ∈ (chip.forcePuts current).map Put.taken) :
    w.location = Layout.portOverride := by
  rw [taken_force] at hw
  split at hw
  · rw [List.mem_singleton.mp hw]
  · cases hw

theorem location_reset {s : Store} {w : RegisterWrite} (hw : w ∈ (chip.resetPuts s).map Put.taken) :
    w.location ∈ Layout.switchMode :: chip.controlRegisters ++ [Layout.portOverride] := by
  rw [Chip.resetPuts, List.map_append] at hw
  rcases List.mem_append.mp hw with hw | hw
  · exact List.mem_append_left _ (location_enable hw)
  · exact List.mem_append_right _ (List.mem_singleton.mpr (location_force hw))

theorem mode_reset {s : Store} {w : RegisterWrite} (hw : w ∈ (chip.resetPuts s).map Put.taken)
    (hl : w.location = Layout.switchMode) :
    w.value = (withForwarding ((s.registers Layout.switchMode).setWidth 8)).setWidth 64 := by
  rw [Chip.resetPuts, List.map_append, taken_enable] at hw
  rcases List.mem_append.mp hw with hw | hw
  · split at hw
    · cases hw
    · rcases List.mem_cons.mp hw with rfl | hw
      · rfl
      · have hcontrol := Store.location_zeros hw
        rw [hl] at hcontrol
        exact absurd hcontrol (chip.modeRegisters_disjoint _ (by decide)).2.1
  · cases hl.symm.trans (location_force hw)

theorem Chip.portOverride_not_mem (chip : Chip) :
    Layout.portOverride ∉ Layout.switchMode :: chip.controlRegisters := fun h =>
  (List.nodup_append.mp chip.resetRegisters_nodup.1).2.2 _ h _ (List.mem_singleton.mpr rfl) rfl

/-- No chip of the fast Ethernet family can force its ports, so a reset is the same two
    steps in both families. -/
theorem reset_eq (chip : Chip) : chip.family.reset chip =
    (do enableForwarding chip; Gigabit.forcePorts chip) := by
  cases hfamily : chip.family with
  | fastEthernet =>
    have hforce : Gigabit.forcePorts chip = pure () := by
      rw [Gigabit.forcePorts, if_neg]
      cases chip <;> first | decide | cases hfamily
    rw [hforce]
    exact (bind_pure _).symm
  | gigabit => rfl

/-- A reset makes its writes, unless it has to turn forwarding on and that does not last. -/
theorem does_reset
    (hs : (s.registers Layout.switchMode).setWidth 8 &&& Layout.forwarding = 0 → s.forwardStuck = false) :
    Store.Does (chip.family.reset chip) s () ((chip.resetPuts s).map Put.taken) := by
  have hkept :
      (s.writeAll ((chip.enablePuts ((s.registers Layout.switchMode).setWidth 8)).map Put.taken)).registers
      Layout.portOverride = s.registers Layout.portOverride :=
    Store.registers_writeAll_outside s (fun w hw => location_enable hw) chip.portOverride_not_mem
  rw [reset_eq, Chip.resetPuts, List.map_append, ← hkept]
  exact (does_enableForwarding hs).bind (does_forcePorts chip _)

end

section
variable {P : Registers.Call → Prop} {chip : Chip}
  (h : ∀ c : Registers.Call, c.address.location ∈ Layout.switchMode :: chip.controlRegisters → P c)
include h

theorem uses_enableForwarding : Script.Uses P (enableForwarding chip) := by
  have hmode : ∀ c : Registers.Call, c.address.location = Layout.switchMode → P c :=
    fun c hc => h c (hc ▸ .head _)
  have hclear : Script.Uses P (clearPortControl (portsBelow (chip.lastPhyPort + 1))) := by
    rw [clearPortControl_eq]
    refine uses_emit fun p hp => h _ (List.mem_cons_of_mem _ ?_)
    have hput : p.taken ∈ (clearPuts (portsBelow (chip.lastPhyPort + 1))).map Put.taken :=
      List.mem_map_of_mem hp
    rw [taken_clear] at hput
    obtain ⟨l, hl, hw⟩ := List.mem_map.mp hput
    rw [show l = p.address.location from congrArg RegisterWrite.location hw] at hl
    exact hl
  rw [enableForwarding]
  refine (uses_read8 (hmode _ rfl)).bind fun mode => .ite (.done _) ?_
  refine (uses_write (hmode _ rfl)).seq ((uses_read8 (hmode _ rfl)).bind fun latched => .ite ?_ hclear)
  exact (Program.Uses.done (.error Error.resetFailed)).seq hclear

/-- Only the chips that can force their ports use the register for that. -/
theorem uses_reset
    (hports : chip.hasPortOverride = true →
      ∀ c : Registers.Call, c.address.location = Layout.portOverride → P c) :
    Script.Uses P (chip.family.reset chip) := by
  cases chip.family with
  | fastEthernet => exact uses_enableForwarding h
  | gigabit =>
    refine (uses_enableForwarding h).seq ?_
    rw [Gigabit.forcePorts]
    split
    case isTrue hforces =>
      exact (uses_read8 (hports hforces _ rfl)).bind fun current => uses_write (hports hforces _ rfl)
    case isFalse => exact .done _

end

/-! ### Registering -/

section
variable {s t : Store} {chip : Chip}

theorem does_resetAndReturn (hs : s.forwardStuck = false) (config : Config) :
    Store.Does (do chip.family.reset chip; return config) { s with zeroIdReads := 0 } config
      ((chip.resetPuts s).map Put.taken) := by
  have hreset :
      Store.Does (chip.family.reset chip) { s with zeroIdReads := 0 } () ((chip.resetPuts s).map Put.taken) :=
    does_reset (s := { s with zeroIdReads := 0 }) fun _ => hs
  have h := Store.Does.bind (f := fun _ => pure config) hreset (Store.does_pure config)
  rwa [List.append_nil] at h

/-- Registering resets the chip as what the id registers name, whatever it really is. -/
theorem runOn_register_as {found : Chip} (hs : s.forwardStuck = false) (hid : s.Identifies found)
    (hzero : s.zeroIdReads ≤ idRetries) :
    runOn Store.device Switch.register s =
      (.ok (Config.initial (s.identity found)),
        Store.writeAll { s with zeroIdReads := 0 } ((found.resetPuts s).map Put.taken)) := by
  rw [Switch.register, runOn_bind_ok (runOn_probe hid hzero)]
  exact (does_resetAndReturn hs _).run

/-- Registering finds the chip, resets it and starts from the default configuration. -/
theorem runOn_register (hs : s.Healthy chip) (hid : s.Identifies chip) (hzero : s.zeroIdReads ≤ idRetries) :
    runOn Store.device Switch.register s =
      (.ok (Config.initial (s.identity chip)),
        Store.writeAll { s with zeroIdReads := 0 } ((chip.resetPuts s).map Put.taken)) :=
  runOn_register_as hs.forwards hid hzero

/-- On the way, registering has done nothing yet but read the id, or the first ones of its writes. -/
theorem passes_register (hs : s.Healthy chip) (hid : s.Identifies chip) (hzero : s.zeroIdReads ≤ idRetries)
    (h : Switch.register.run.Passes Store.device s t) :
    ∃ k ≤ s.zeroIdReads, ∃ before, before <+: (chip.resetPuts s).map Put.taken ∧
      t = Store.writeAll { s with zeroIdReads := k } before := by
  rw [Switch.register] at h
  rcases (passes_bind (runOn_probe hid hzero)).mp h with h | h
  · obtain ⟨k, hk, rfl⟩ := passes_probe h
    exact ⟨k, hk, [], List.nil_prefix, rfl⟩
  · obtain ⟨before, hbefore, rfl⟩ := (does_resetAndReturn hs.forwards _).passes t h
    exact ⟨0, Nat.zero_le _, before, hbefore, rfl⟩

end

end EtherSwitch
