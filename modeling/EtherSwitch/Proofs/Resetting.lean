import EtherSwitch.Proofs.Discovery

/-! What a reset does to a chip, whatever its registers hold. It makes a list of writes to plain registers, each
    of them once, and the store afterwards is the one before but for these (`Store.Wrote`). A chip on which
    forwarding does not stay on loses the first one of them and gets no other. Once a reset was done, the next
    one finds everything as it would have it (`Switch.reset_effect`). -/

namespace EtherSwitch
open Script

/-- The write that forces the ports' state, on the chips that can. -/
def Chip.overrideWrites (chip : Chip) (s : Store) : List RegisterWrite :=
  if chip = .bcm53115 ∨ chip = .bcm53125 then
    [⟨Layout.portOverride, ((s.registers Layout.portOverride).setWidth 8 ||| 0x81).setWidth 64⟩]
  else []

/-- The writes that turn forwarding on, given the switch mode, and clear the port control. -/
def Chip.forwardingWrites (chip : Chip) (mode : BitVec 8) : List RegisterWrite :=
  ⟨Layout.switchMode, (withForwarding mode).setWidth 64⟩ :: chip.controlRegisters.map (RegisterWrite.mk · 0)

theorem Chip.hasPortOverride_iff {chip : Chip} : chip.hasPortOverride = true ↔
    chip = .bcm53115 ∨ chip = .bcm53125 := by
  cases chip <;> decide

theorem taken_force_eq (chip : Chip) (s : Store) :
    (chip.forcePuts ((s.registers Layout.portOverride).setWidth 8)).map Put.taken = chip.overrideWrites s := by
  have hbits : Layout.overrideEnable ||| Layout.overrideLink = 0x81 := by decide
  rw [taken_force, Chip.overrideWrites, BitVec.or_assoc, hbits]
  simp only [Chip.hasPortOverride_iff]

theorem location_override {chip : Chip} {s : Store} {w : RegisterWrite} (hw : w ∈ chip.overrideWrites s) :
    w.location = Layout.portOverride :=
  location_force (taken_force_eq chip s ▸ hw)

namespace Store

/-! ### What writes leave -/

/-- Store `t` is store `s` after the writes `ws`: each of their registers holds what was written, and nothing
    else has changed. -/
structure Wrote (ws : List RegisterWrite) (s t : Store) : Prop where
  log : t.writes = s.writes ++ ws
  values : ∀ w ∈ ws, t.registers w.location = w.value
  others : ∀ l ∉ ws.map RegisterWrite.location, t.registers l = s.registers l
  table : t.table = s.table

section
variable {s t u : Store} {chip : Chip} {ws : List RegisterWrite}

/-- Writes to plain registers, each of them written once, leave these as written if the values stay. -/
theorem wrote_writeAll (hplain : ∀ w ∈ ws, ∀ chip', s.chip = some chip' → w.location ≠ chip'.tableCommand)
    (hlatched : ∀ w ∈ ws, s.latched w.location w.value = w.value)
    (hnodup : (ws.map RegisterWrite.location).Nodup) :
    Wrote ws s (s.writeAll ws) where
  log := writes_writeAll s ws
  values w hw := registers_writeAll_of_nodup hw (hplain w hw) (hlatched w hw) hnodup
  others _ hl := registers_writeAll_of_ne s fun _ hw heq => hl (heq ▸ List.mem_map_of_mem hw)
  table := table_writeAll_of_ne hplain

/-- Writes of what the registers hold already change none. -/
theorem Wrote.registers_eq (h : Wrote ws s t) (hsame : ∀ w ∈ ws, s.registers w.location = w.value)
    (l : Location) :
    t.registers l = s.registers l := by
  by_cases hl : l ∈ ws.map RegisterWrite.location
  · obtain ⟨w, hw, rfl⟩ := List.mem_map.mp hl
    rw [h.values w hw, hsame w hw]
  · exact h.others l hl

/-- Forced ports are forced to what they are forced to already. -/
theorem Wrote.override (h : Wrote ws s t) (hws : ∀ w ∈ chip.overrideWrites s, w ∈ ws) :
    ∀ w ∈ chip.overrideWrites t, t.registers w.location = w.value := by
  intro w hw
  rw [Chip.overrideWrites] at hw hws
  split at hw
  case isTrue hforces =>
    rw [if_pos hforces] at hws
    have hvalue := h.values _ (hws _ (.head _))
    rw [List.mem_singleton.mp hw, hvalue, narrow_widen (by decide), BitVec.or_assoc, BitVec.or_self]
  case isFalse => cases hw

end

/-! ### What a reset does -/

/-- What a reset of the chip makes of store `s`: it answers `answer` and leaves `t`. -/
structure Resets (chip : Chip) (s : Store) (answer : Except Error Unit) (t : Store) : Prop where
  /-- Where forwarding is on, it writes nothing but what forces the ports. -/
  on : s.mode.getLsbD 1 = true → answer = .ok () ∧ Wrote (chip.overrideWrites s) s t
  /-- Where it is off and does not stay on, the attempt to turn it on is the only write. -/
  lost : s.mode.getLsbD 1 = false → s.forwardStuck = true →
    answer = .error .resetFailed ∧ t.writes = s.writes ++
      [⟨Layout.switchMode, (withForwarding s.mode).setWidth 64⟩] ∧
      t.mode = s.mode &&& ~~~Layout.managed ∧ (∀ l ≠ Layout.switchMode, t.registers l = s.registers l) ∧
        t.table = s.table
  /-- Otherwise it turns forwarding on, and then clears port control and forces the ports. -/
  raised : s.mode.getLsbD 1 = false → s.forwardStuck = false →
    answer = .ok () ∧ Wrote (chip.forwardingWrites s.mode ++ chip.overrideWrites s) s t

section
variable {s t u : Store} {chip : Chip} {answer : Except Error Unit}

/-- The writes of a reset, with the registers as they are before it. -/
theorem taken_reset_eq (chip : Chip) (s : Store) :
    (chip.resetPuts s).map Put.taken =
      (if s.mode.getLsbD 1 then [] else chip.forwardingWrites s.mode) ++ chip.overrideWrites s := by
  rw [Chip.resetPuts, List.map_append, taken_enable, taken_force_eq]
  show (if s.mode &&& Layout.forwarding ≠ 0 then [] else chip.forwardingWrites s.mode) ++ _ = _
  cases hon : s.mode.getLsbD 1 with
  | true =>
    rw [if_pos fun hoff => Bool.false_ne_true ((and_forwarding_eq_zero_iff.mp hoff).symm.trans hon), if_pos rfl]
  | false => rw [if_neg fun h => h (and_forwarding_eq_zero_iff.mpr hon), if_neg Bool.false_ne_true]

theorem nodup_reset (chip : Chip) (mode : BitVec 8) (s : Store) :
    ((chip.forwardingWrites mode ++ chip.overrideWrites s).map RegisterWrite.location).Nodup := by
  have hforced : List.Sublist ((chip.overrideWrites s).map RegisterWrite.location) [Layout.portOverride] := by
    rw [Chip.overrideWrites]
    split
    · exact List.Sublist.refl _
    · exact List.nil_sublist _
  have hfirst : (chip.forwardingWrites mode).map RegisterWrite.location = Layout.switchMode ::
      chip.controlRegisters := by
    simp [Chip.forwardingWrites, Function.comp_def]
  rw [List.map_append, hfirst]
  exact chip.resetRegisters_nodup.1.sublist (hforced.append_left _)

/-- A reset that does not fail leaves the store as its writes say. -/
theorem wrote_reset (hs : s.mode.getLsbD 1 = false → s.forwardStuck = false) (chip : Chip) :
    runOn device (chip.family.reset chip) s = (.ok (), s.writeAll ((chip.resetPuts s).map Put.taken)) ∧
      Wrote ((chip.resetPuts s).map Put.taken) s (s.writeAll ((chip.resetPuts s).map Put.taken)) := by
  refine ⟨(does_reset fun hoff => hs (and_forwarding_eq_zero_iff.mp hoff)).run, wrote_writeAll ?_ ?_ ?_⟩
  · rintro w hw chip' - hl
    exact chip.tableCommand_not_mem_reset chip' (hl ▸ location_reset hw)
  · intro w hw
    rw [taken_reset_eq] at hw
    cases hon : s.mode.getLsbD 1 with
    | true =>
      rw [hon] at hw
      exact latched_of_ne s (location_override hw ▸ by decide) _
    | false => exact latched_of_forwards (hs hon)
  · rw [taken_reset_eq]
    refine (nodup_reset chip s.mode s).sublist (List.Sublist.map _ (List.Sublist.append_right ?_ _))
    split
    · exact List.nil_sublist _
    · exact List.Sublist.refl _

theorem resets (chip : Chip) (s : Store) :
    Resets chip s (runOn device (chip.family.reset chip) s).1 (runOn device (chip.family.reset chip) s).2 where
  on hon := by
    obtain ⟨hrun, hwrote⟩ := wrote_reset (s := s) (fun hoff => absurd hon (hoff ▸ Bool.false_ne_true)) chip
    rw [hrun]
    rw [taken_reset_eq, hon, if_pos rfl, List.nil_append] at hwrote ⊢
    exact ⟨rfl, hwrote⟩
  lost hoff hstuck := by
    have hmode : ∀ mode : BitVec 8, mode.getLsbD 1 = false →
        withForwarding mode &&& ~~~Layout.forwarding = mode &&& ~~~Layout.managed := by decide
    rw [runOn_reset_of_stuck hstuck (and_forwarding_eq_zero_iff.mpr hoff) chip]
    exact ⟨rfl, (write_keeps s _ _).2.2.2, (mode_write_of_stuck hstuck _).trans (hmode s.mode hoff),
      fun l hl => registers_write_of_ne hl, table_write_of_ne (s.mode_ne_command (by decide))⟩
  raised hoff hforwards := by
    obtain ⟨hrun, hwrote⟩ := wrote_reset (s := s) (fun _ => hforwards) chip
    rw [hrun]
    rw [taken_reset_eq, hoff, if_neg Bool.false_ne_true] at hwrote ⊢
    exact ⟨rfl, hwrote⟩

/-- After a reset that did not fail forwarding is on and the ports are forced. -/
theorem Resets.settled (h : Resets chip s answer t) (hok : answer = .ok ()) :
    t.mode.getLsbD 1 = true ∧ ∀ w ∈ chip.overrideWrites t, t.registers w.location = w.value := by
  cases hon : s.mode.getLsbD 1 with
  | true =>
    obtain ⟨-, hwrote⟩ := h.on hon
    have hkept : t.registers Layout.switchMode = s.registers Layout.switchMode := by
      refine hwrote.others _ fun hl => ?_
      obtain ⟨w, hw, hl⟩ := List.mem_map.mp hl
      exact absurd (hl.symm.trans (location_override hw)) (by decide)
    exact ⟨by rw [mode, hkept]; exact hon, hwrote.override fun _ hw => hw⟩
  | false =>
    cases hstuck : s.forwardStuck with
    | true => cases hok.symm.trans (h.lost hon hstuck).1
    | false =>
      obtain ⟨-, hwrote⟩ := h.raised hon hstuck
      have hmode : t.registers Layout.switchMode = (withForwarding s.mode).setWidth 64 :=
        hwrote.values _ (.head _)
      refine ⟨?_, hwrote.override fun _ hw => List.mem_append_right _ hw⟩
      rw [mode, hmode, narrow_widen (by decide)]
      exact getLsbD_withForwarding s.mode 1

theorem Resets.again (h : Resets chip s (.ok ()) t) (h' : Resets chip t answer u) :
    answer = .ok () ∧ ∀ l, u.registers l = t.registers l := by
  obtain ⟨hon, hforced⟩ := h.settled rfl
  obtain ⟨hok, hwrote⟩ := h'.on hon
  exact ⟨hok, hwrote.registers_eq hforced⟩

end

end Store

namespace Switch

/-- A reset over an engine that reaches the chip's registers does to it what it does to the store. -/
theorem runOn_resets {e : Engine} {s : Nat × Simulation} (hserves : ∀ c, Engine.Plain c → e.Serves s.2.faults c)
    (hready : e = .spi ∨ s.2.mdioPort.Settled) (chip : Chip) :
    ∃ answer t, runOn e.device (chip.family.reset chip) s = (answer, t) ∧
      Store.Resets chip s.2.store answer t.2.store ∧
      t.2.faults = s.2.faults ∧ (e = .spi ∨ t.2.mdioPort.Settled) := by
  obtain ⟨hanswer, hend⟩ := Engine.runOn_mirrors ((uses_reset_plain chip).mono hserves) ⟨rfl, rfl, hready⟩
  have hresets := Store.resets chip s.2.store
  rw [← hanswer, ← hend.store] at hresets
  exact ⟨_, _, rfl, hresets, hend.faults, hend.ready⟩

/-- A reset does to a chip exactly what it is meant to do, whatever the chip's registers hold and whether or not
    forwarding stays on, and a second reset after it changes no register. -/
theorem reset_effect {e : Engine} {s : Simulation} (hs : s.Reachable)
    (hserves : ∀ c, Engine.Plain c → e.Serves s.faults c) (chip : Chip) (n : Nat) :
    ∃ answer t, runOn e.device (chip.family.reset chip) (n, s) = (answer, t) ∧
      Store.Resets chip s.store answer t.2.store ∧
      (answer = .ok () → ∃ u, runOn e.device (chip.family.reset chip) t = (.ok (), u) ∧
        ∀ l, u.2.store.registers l = t.2.store.registers l) := by
  obtain ⟨answer, t, hrun, hresets, hfaults, hready⟩ :=
    runOn_resets (s := (n, s)) hserves (Or.inr hs.settled) chip
  refine ⟨answer, t, hrun, hresets, fun hok => ?_⟩
  obtain ⟨answer', u, hrun', hresets', -, -⟩ := runOn_resets (s := t) (hfaults ▸ hserves) hready chip
  obtain ⟨hok', hsame⟩ := (hok ▸ hresets).again hresets'
  exact ⟨u, hok' ▸ hrun', hsame⟩

/-- The chip is reset in full, but not where forwarding does not stay on. -/
theorem reset_effect_unmanaged :
    let stuck : Simulation := { unmanaged with store := { unmanaged.store with forwardStuck := true } }
    (∃ t, runOn Engine.spi.device (Chip.bcm53115.family.reset .bcm53115) (0, unmanaged) = (.ok (), t) ∧
      t.2.store.registers Layout.switchMode = 0xfe ∧ t.2.store.registers (Layout.portControl 4) = 0 ∧
      t.2.store.registers Layout.portOverride = 0x81 ∧
      ∃ u, runOn Engine.spi.device (Chip.bcm53115.family.reset .bcm53115) t = (.ok (), u) ∧
        u.2.store.registers Layout.portOverride = 0x81) ∧
      ∃ t, runOn (Engine.mdio {}).device (Chip.bcm53115.family.reset .bcm53115) (0, stuck) =
        (.error .resetFailed, t) ∧
        t.2.store.mode = 0xfc := by
  intro stuck
  constructor
  · have hserves : ∀ c, Engine.Plain c → Engine.spi.Serves unmanaged.faults c := fun c hc => ⟨rfl, hc⟩
    obtain ⟨answer, t, hrun, hresets, hagain⟩ :=
      reset_effect (e := .spi) ((Simulation.reachable_new _).setRegister _ _) hserves .bcm53115 0
    obtain ⟨rfl, hwrote⟩ := hresets.raised rfl rfl
    obtain ⟨u, hrun', hsame⟩ := hagain rfl
    have hports : t.2.store.registers Layout.portOverride = 0x81 :=
      hwrote.values ⟨Layout.portOverride, 0x81⟩ (by decide)
    exact ⟨t, hrun, hwrote.values ⟨Layout.switchMode, 0xfe⟩ (by decide),
      hwrote.values ⟨Layout.portControl 4, 0⟩ (by decide), hports, u, hrun', (hsame _).trans hports⟩
  · obtain ⟨answer, t, hrun, hresets, -⟩ :=
      reset_effect (e := .mdio {}) (s := stuck) (.start _ _) (fun _ _ => ⟨rfl, Or.inl rfl⟩) .bcm53115 0
    obtain ⟨rfl, -, hmode, -⟩ := hresets.lost (by decide) rfl
    exact ⟨t, hrun, hmode.trans (by decide)⟩

end Switch

end EtherSwitch
