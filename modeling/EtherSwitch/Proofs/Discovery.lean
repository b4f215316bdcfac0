import EtherSwitch.Proofs.Tracking

/-! How bringing up a chip that was just powered up ends. The probe finds the chip that the id registers name,
    if the id shows within the reads that are made of it and the engine finds the chip at all
    (`Switch.register_eq_outcome`). -/

namespace EtherSwitch
open Script

/-! ### Other PHYs -/

namespace PseudoPhy
variable {settings : Settings} (hphy : settings.phy ≠ defaultPhy)
include hphy

theorem mdio_read_of_other (register : UInt8) (s : Simulation) :
    Simulation.mdio (.read settings.phy register) s = (.ok 0xffff, s) := by
  simp [Simulation.mdio, hphy]

theorem mdio_write_of_other (register : UInt8) (word : BitVec 16) (s : Simulation) :
    Simulation.mdio (.write settings.phy register word) s = (.ok (), s) := by
  simp [Simulation.mdio, hphy]

theorem runOn_completes_of_other (polls n : Nat) (s : Simulation) :
    runOn Simulation.mdio (settings.completes polls) (n, s) =
      (.ok false, n, { s with elapsed := s.elapsed + polls * pollDelay }) := by
  induction polls generalizing s with
  | zero => rw [Settings.completes, runOn_pure, Nat.zero_mul, Nat.add_zero]
  | succ polls ih =>
    have hpoll : runOn Simulation.mdio (readWord settings.phy addressRegister) (n, s) = (.ok 0xffff, n, s) := by
      rw [runOn_readWord, mdio_read_of_other hphy]
      rfl
    rw [Settings.completes, runOn_bind_ok hpoll, if_neg (by decide), runOn_bind_ok (runOn_delay _ _ _ _), ih]
    simp only [Simulation.mdio, Nat.succ_mul, Nat.add_assoc, Nat.add_comm pollDelay]

theorem runOn_operate_of_other (l : Location) (op : Operation) (n : Nat) (s : Simulation) :
    runOn Simulation.mdio (settings.operate l op) (n, s) =
      (if settings.strict then .error (.mdioTimeout l) else .ok (), n + 1,
        { s with elapsed := s.elapsed + pollLimit * pollDelay }) := by
  have hissue :
      runOn Simulation.mdio (writeWord settings.phy addressRegister (l.offset.toBitVec ++ op.code)) (n, s) =
      (.ok (), n, s) := by
    rw [runOn_writeWord, mdio_write_of_other hphy]
    rfl
  rw [Settings.operate, runOn_bind_ok hissue, runOn_bind_ok (runOn_completes_of_other hphy _ _ _)]
  cases settings.strict <;> rfl

/-- A read from another PHY never completes and gives all ones. The chip does not notice. -/
theorem device_read_of_other (a : Address) (n : Nat) (s : Simulation) :
    settings.layer.device Simulation.mdio (.read a) (n, s) =
      (if settings.strict then .error (.mdioTimeout a.location)
        else .ok (a.width.truncate (Word.ofLimbs (List.replicate (chunks a.width) (0xffff : BitVec 16)))),
          n + 1,
        { s with elapsed := s.elapsed + pollLimit * pollDelay }) := by
  have hselect : runOn Simulation.mdio (settings.selectPage a.location.page) (n, s) = (.ok (), n, s) := by
    rw [Settings.selectPage, runOn_writeWord, mdio_write_of_other hphy]
    rfl
  have hoperate := runOn_operate_of_other hphy a.location .read n s
  rw [device_read_eq, Settings.read, runOn_bind_ok hselect]
  cases hstrict : settings.strict with
  | true =>
    rw [hstrict] at hoperate
    exact runOn_bind_error hoperate
  | false =>
    rw [hstrict] at hoperate
    have hcollect : ∀ s, runOn Simulation.mdio (settings.collect (chunks a.width)) (n + 1, s) =
        (.ok ((List.range (chunks a.width)).map fun _ => (0xffff : BitVec 16)), n + 1, s) := fun s =>
      runOn_mapM fun i _ => by rw [runOn_readWord, mdio_read_of_other hphy]; rfl
    rw [runOn_bind_ok hoperate, runOn_bind_ok (hcollect _), runOn_pure, List.map_const', List.length_range]
    rfl

end PseudoPhy

/-! ### Probing -/

section
variable {s : Store}

/-- An id that does not show in time is taken for zero. -/
theorem runOn_readDeviceId_of_late {retries : Nat} (h : retries < s.zeroIdReads) :
    runOn Store.device (readDeviceId retries) s =
      (.ok 0, { s with zeroIdReads := s.zeroIdReads - (retries + 1) }) := by
  have hread : ∀ t : Store, 0 < t.zeroIdReads →
      runOn Store.device (read8 Layout.deviceId) t = (.ok 0, { t with zeroIdReads := t.zeroIdReads - 1 }) := by
    intro t ht
    rw [Store.runOn_read8, Store.read, if_pos ⟨rfl, ht⟩]
    rfl
  induction retries generalizing s with
  | zero => exact hread s h
  | succ retries ih =>
    have hnext : retries < s.zeroIdReads - 1 := by omega
    rw [readDeviceId, runOn_bind_ok (hread s (by omega)), if_pos rfl, ih hnext, Nat.sub_sub, Nat.add_comm 1]

theorem runOn_probe_of_late (h : idRetries < s.zeroIdReads) :
    runOn Store.device probe s =
      (.ok (s.identity (Chip.ofVlanControl4 ((s.registers Layout.vlanControl4).setWidth 8))),
        { s with zeroIdReads := s.zeroIdReads - (idRetries + 1) }) := by
  have hresolve : ∀ t : Store, runOn Store.device (resolveChip 0) t =
      (.ok (Chip.ofVlanControl4 ((t.registers Layout.vlanControl4).setWidth 8)), t) := by
    intro t
    rw [resolveChip, if_pos (show Chip.isSharedId 0 = true from rfl), runOn_bind_ok (Store.runOn_read8 t _),
      Store.read_of_ne (by decide)]
    rfl
  rw [probe, runOn_bind_ok (runOn_readDeviceId_of_late h), runOn_bind_ok (hresolve _),
    runOn_bind_ok (Store.runOn_read8 _ _), Store.read_of_ne (by decide)]
  rfl

theorem runOn_probe_of_unknown (hzero : s.zeroIdReads ≤ idRetries)
    (hid : Chip.ofIds? ((s.registers Layout.deviceId).setWidth 16)
      ((s.registers Layout.vlanControl4).setWidth 8) = none) :
    runOn Store.device probe s =
      (.error (.unknownChip ((s.registers Layout.deviceId).setWidth 16)), { s with zeroIdReads := 0 }) := by
  have hnarrow : ((s.registers Layout.deviceId).setWidth 16).setWidth 8 =
      (s.registers Layout.deviceId).setWidth 8 :=
    BitVec.setWidth_setWidth_of_le _ (by decide)
  rw [Chip.ofIds?, hnarrow] at hid
  split at hid
  · cases hid
  case isFalse hshared =>
    obtain ⟨hnarrow8, hnarrow16⟩ := Option.or_eq_none_iff.mp hid
    have hread := Store.runOn_read16 { s with zeroIdReads := 0 } Layout.deviceId
    rw [Store.read_of_shown rfl] at hread
    have hresolve : runOn Store.device (resolveChip ((s.registers Layout.deviceId).setWidth 8))
        { s with zeroIdReads := 0 } =
        (.error (.unknownChip ((s.registers Layout.deviceId).setWidth 16)), { s with zeroIdReads := 0 }) := by
      rw [resolveChip, if_neg hshared, hnarrow8]
      refine (runOn_bind_ok hread).trans ?_
      rw [hnarrow16]
      rfl
    rw [probe, runOn_bind_ok (runOn_readDeviceId hzero)]
    exact runOn_bind_error hresolve

theorem Store.mode_write_of_stuck (hs : s.forwardStuck = true) (value : BitVec 8) :
    (s.write Layout.switchMode (value.setWidth 64)).mode = value &&& ~~~Layout.forwarding := by
  have hlatched : (s.write Layout.switchMode (value.setWidth 64)).registers Layout.switchMode =
      value.setWidth 64 &&& ~~~(Layout.forwarding.setWidth 64) := by
    rw [write_of_ne (s.mode_ne_command (by decide)), latched, if_pos ⟨rfl, hs⟩]
    exact s.registers_set_self Layout.switchMode _
  rw [mode, hlatched, BitVec.setWidth_and, BitVec.setWidth_not (by decide), narrow_widen (by decide),
    narrow_widen (by decide)]

/-- A reset that finds forwarding off fails if forwarding does not stay on, after it tried to turn it on. -/
theorem runOn_reset_of_stuck (hs : s.forwardStuck = true) (hoff : s.mode &&& Layout.forwarding = 0)
    (chip : Chip) :
    runOn Store.device (chip.family.reset chip) s =
      (.error .resetFailed, s.write Layout.switchMode ((withForwarding s.mode).setWidth 64)) := by
  have hmode : ∀ t : Store, runOn Store.device (read8 Layout.switchMode) t = (.ok t.mode, t) := fun t => by
    rw [Store.runOn_read8, Store.read_of_ne (by decide), Store.mode]
  have hwrite :
      runOn Store.device (write8 Layout.switchMode (s.mode &&& ~~~Layout.managed ||| Layout.forwarding)) s =
      (.ok (), s.write Layout.switchMode ((withForwarding s.mode).setWidth 64)) := by
    rw [write8, runOn_write, Store.device, Width.truncate_setWidth .bits8 (by decide), withForwarding]
  have hlost :
      (s.write Layout.switchMode ((withForwarding s.mode).setWidth 64)).mode &&& Layout.forwarding = 0 := by
    rw [Store.mode_write_of_stuck hs, BitVec.and_assoc]
    exact BitVec.and_zero
  have hfails : runOn Store.device (enableForwarding chip) s =
      (.error .resetFailed, s.write Layout.switchMode ((withForwarding s.mode).setWidth 64)) := by
    rw [enableForwarding, runOn_bind_ok (hmode s), if_neg fun hon => hon hoff, runOn_bind_ok hwrite,
      runOn_bind_ok (hmode _)]
    simp only [if_pos hlost]
    rfl
  rw [reset_eq]
  exact runOn_bind_error hfails

end

/-! ### Bringing up -/

/-- The chip that a probe takes the model for. If the id hides for too long, zero is taken for it. -/
def Model.found (m : Model) : Option Chip :=
  if m.zeroIdReads ≤ 9 then m.chip? else some (Chip.ofVlanControl4 m.vlanControl4)

/-- How bringing the chip up ends over an engine that reaches its registers. -/
def Model.outcome (m : Model) : Except Error Config :=
  match m.found with
  | none => .error (.unknownChip m.deviceId)
  | some chip => if m.faults.forwardStuck then .error .resetFailed else .ok (.initial ⟨chip, m.revision⟩)

/-- How bringing the chip up ends over the engine. -/
def Engine.outcome (m : Model) : Engine → Except Error Config
  | .spi => if m.faults.neverAckSpi then .error (.spiTimeout Layout.deviceId) else m.outcome
  | .mdio settings =>
    if settings.strict ∧ (m.faults.stallMdio ∨ settings.phy ≠ PseudoPhy.defaultPhy)
      then .error (.mdioTimeout Layout.deviceId)
    else if settings.phy ≠ PseudoPhy.defaultPhy then .error (.unknownChip 0xffff)
    else m.outcome

namespace Switch

theorem runOn_register_of_unread {σ : Type} {d : Device Registers σ} {s t : σ} {err : Error}
    (h : d (.read ⟨Layout.deviceId, .bits8⟩) s = (.error err, t)) : runOn d register s = (.error err, t) := by
  have hread : runOn d (read8 Layout.deviceId) s = (.error err, t) := runOn_bind_error h
  have hid : runOn d (readDeviceId idRetries) s = (.error err, t) := runOn_bind_error hread
  exact runOn_bind_error (runOn_bind_error hid)

/-- On its store a probed chip is brought up, unless forwarding does not stay on. -/
theorem runOn_register_of_probed {s t : Store} {identity : Identity}
    (hprobe : runOn Store.device probe s = (.ok identity, t)) (hoff : t.mode &&& Layout.forwarding = 0) :
    (runOn Store.device register s).1 =
      (if t.forwardStuck then .error .resetFailed else .ok (.initial identity)) ∧
      (t.forwardStuck = false → (runOn Store.device register s).2.mode.getLsbD 1 = true) := by
  rw [register, runOn_bind_ok hprobe]
  cases hstuck : t.forwardStuck with
  | true =>
    have hreset := runOn_reset_of_stuck hstuck hoff identity.chip
    exact ⟨congrArg Prod.fst (runOn_bind_error hreset), fun h => by cases h⟩
  | false =>
    obtain ⟨-, -, hon⟩ := Store.follows_reset hstuck identity.chip
    rw [runOn_bind_ok (does_reset fun _ => hstuck).run]
    exact ⟨rfl, fun _ => hon⟩

/-- On the store of a chip that was just powered up, bringing it up ends as its model says. -/
theorem runOn_register_store (m : Model) :
    (runOn Store.device register m.store).1 = m.outcome ∧
      ∀ config, m.outcome = .ok config → (runOn Store.device register m.store).2.mode.getLsbD 1 = true := by
  have hid : (m.store.registers Layout.deviceId).setWidth 16 = m.deviceId := narrow_widen (by decide) _
  have hcontrol : (m.store.registers Layout.vlanControl4).setWidth 8 = m.vlanControl4 :=
    narrow_widen (by decide) _
  have hname : ∀ chip, m.store.identity chip = ⟨chip, m.revision⟩ := fun chip => by
    have hrevision : (m.store.registers Layout.coreRevision).setWidth 8 = m.revision.toBitVec :=
      narrow_widen (by decide) _
    rw [Store.identity, hrevision]
  have hfound : ∀ {chip : Chip} {k : Nat}, m.found = some chip →
      runOn Store.device probe m.store = (.ok (m.store.identity chip), { m.store with zeroIdReads := k }) →
      (runOn Store.device register m.store).1 = m.outcome ∧
        ∀ config, m.outcome = .ok config → (runOn Store.device register m.store).2.mode.getLsbD 1 = true := by
    intro chip k hchip hprobe
    have hmode : m.store.registers Layout.switchMode = 0 := rfl
    have hoff : ({ m.store with zeroIdReads := k } : Store).mode &&& Layout.forwarding = 0 := by
      rw [Store.mode, hmode]
      rfl
    obtain ⟨hanswer, hon⟩ := runOn_register_of_probed hprobe hoff
    rw [hname] at hanswer
    rw [Model.outcome, hchip]
    refine ⟨hanswer, fun config hok => hon ?_⟩
    cases hstuck : m.faults.forwardStuck with
    | true =>
      rw [hstuck] at hok
      cases hok
    | false => exact hstuck
  by_cases hzero : m.zeroIdReads ≤ 9
  · cases hchip : m.chip? with
    | some chip =>
      refine hfound ?_ (runOn_probe (Model.identifies hchip) hzero)
      rw [Model.found, if_pos hzero, hchip]
    | none =>
      have hprobe :=
        runOn_probe_of_unknown (s := m.store) hzero ((hid ▸ hcontrol ▸ rfl : _ = m.chip?).trans hchip)
      have hend : m.outcome = .error (.unknownChip m.deviceId) := by
        rw [Model.outcome, Model.found, if_pos hzero, hchip]
      rw [register, runOn_bind_error hprobe, hend, hid]
      refine ⟨rfl, fun config hok => ?_⟩
      cases hok
  · refine hfound ?_ (runOn_probe_of_late (s := m.store) (Nat.lt_of_not_le hzero))
    rw [Model.found, if_neg hzero, hcontrol]

/-- Where no chip answers, the probe sees an id of all ones, unless the first read fails.
    Nothing but time passes. -/
theorem register_of_other {settings : PseudoPhy.Settings} (hphy : settings.phy ≠ PseudoPhy.defaultPhy) (n : Nat)
    (s : Simulation) : ∃ k elapsed, runOn (Engine.mdio settings).device register (n, s) =
      (.error (if settings.strict then .mdioTimeout Layout.deviceId else .unknownChip 0xffff), k,
        { s with elapsed }) := by
  have hread := fun a n s => PseudoPhy.device_read_of_other hphy a n s
  cases hstrict : settings.strict with
  | true =>
    simp only [hstrict, if_true] at hread
    exact ⟨_, _, runOn_register_of_unread (hread _ n s)⟩
  | false =>
    simp only [hstrict, Bool.false_eq_true, if_false] at hread
    have hread8 : ∀ n s, runOn (Engine.mdio settings).device (read8 Layout.deviceId) (n, s) =
        (.ok 0xff, n + 1, { s with elapsed := s.elapsed + PseudoPhy.pollLimit * PseudoPhy.pollDelay }) := by
      intro n s
      have h : runOn (Engine.mdio settings).device (Script.read ⟨Layout.deviceId, .bits8⟩) (n, s) = _ :=
        hread _ n s
      exact runOn_bind_ok h
    have hread16 : ∀ n s, runOn (Engine.mdio settings).device (read16 Layout.deviceId) (n, s) =
        (.ok 0xffff, n + 1, { s with elapsed := s.elapsed + PseudoPhy.pollLimit * PseudoPhy.pollDelay }) := by
      intro n s
      have h : runOn (Engine.mdio settings).device (Script.read ⟨Layout.deviceId, .bits16⟩) (n, s) = _ :=
        hread _ n s
      exact runOn_bind_ok h
    have hid : runOn (Engine.mdio settings).device (readDeviceId idRetries) (n, s) = _ :=
      runOn_bind_ok (hread8 n s)
    have hresolve : ∀ n s, runOn (Engine.mdio settings).device (resolveChip 0xff) (n, s) = _ := fun n s =>
      runOn_bind_ok (hread16 n s)
    have hprobe : runOn (Engine.mdio settings).device probe (n, s) = _ :=
      (runOn_bind_ok hid).trans (runOn_bind_error (hresolve _ _))
    exact ⟨_, _, runOn_bind_error hprobe⟩

theorem register_of_unacknowledged {s : Simulation} (hack : s.faults.neverAckSpi = true) (n : Nat) :
    ∃ t, runOn Engine.spi.device register (n, s) = (.error (.spiTimeout Layout.deviceId), t) := by
  obtain ⟨u, hu, -⟩ := SpiFrames.device_read_of_unacknowledged (a := ⟨Layout.deviceId, .bits8⟩) (by decide) hack
  have hread : Engine.spi.device (.read ⟨Layout.deviceId, .bits8⟩) (n, s) =
      (.error (.spiTimeout Layout.deviceId), n, u) := by
    simp only [Engine.device, Engine.across, Device.within, hu]
  exact ⟨_, runOn_register_of_unread hread⟩

theorem register_of_stalled {settings : PseudoPhy.Settings} (hphy : settings.phy = PseudoPhy.defaultPhy)
    {s : Simulation} (hbad : s.faults.stallMdio = true ∧ settings.strict = true) (n : Nat) :
    ∃ t, runOn (Engine.mdio settings).device register (n, s) = (.error (.mdioTimeout Layout.deviceId), t) := by
  obtain ⟨k, u, hu, -⟩ := PseudoPhy.device_read hphy ⟨Layout.deviceId, .bits8⟩ n s
  rw [if_pos hbad] at hu
  exact ⟨_, runOn_register_of_unread hu⟩

section
variable {e : Engine} {m : Model} {n : Nat}

theorem register_of_failed {err : Error} {t : Nat × Simulation}
    (hrun : runOn e.device register (n, .new m) = (.error err, t)) (hend : e.outcome m = .error err) :
    (runOn e.device register (n, .new m)).1 = e.outcome m ∧
      ∀ config, e.outcome m = .ok config →
        (runOn e.device register (n, .new m)).2.2.store.mode.getLsbD 1 = true := by
  refine ⟨by rw [hrun, hend], fun config hok => ?_⟩
  cases hend.symm.trans hok

/-- Over an engine that reaches the registers of the chip, bringing it up ends as its model says. -/
theorem register_of_served (hserves : ∀ c, Engine.Plain c → e.Serves m.faults c)
    (hend : e.outcome m = m.outcome) :
    (runOn e.device register (n, .new m)).1 = e.outcome m ∧
      ∀ config, e.outcome m = .ok config →
        (runOn e.device register (n, .new m)).2.2.store.mode.getLsbD 1 = true := by
  obtain ⟨hanswer, hstore⟩ := Engine.runOn_mirrors (s := (n, .new m)) (uses_register.mono hserves)
    ⟨rfl, rfl, Or.inr (Simulation.reachable_new m).settled⟩
  rw [hanswer, hstore.store, hend]
  exact runOn_register_store m

theorem register_of_attached (he : e.Attached) :
    (runOn e.device register (n, .new m)).1 = e.outcome m ∧
      ∀ config, e.outcome m = .ok config →
        (runOn e.device register (n, .new m)).2.2.store.mode.getLsbD 1 = true := by
  cases e with
  | spi =>
    cases hack : m.faults.neverAckSpi with
    | true =>
      obtain ⟨t, hrun⟩ := register_of_unacknowledged (s := .new m) hack n
      exact register_of_failed hrun (by rw [Engine.outcome, if_pos hack])
    | false =>
      have hserves : ∀ c, Engine.Plain c → Engine.spi.Serves m.faults c := fun c hc => ⟨hack, hc⟩
      exact register_of_served hserves (by rw [Engine.outcome, hack, if_neg Bool.false_ne_true])
  | mdio settings =>
    have hphy : settings.phy = PseudoPhy.defaultPhy := he
    by_cases hbad : m.faults.stallMdio = true ∧ settings.strict = true
    · obtain ⟨t, hrun⟩ := register_of_stalled (s := .new m) hphy hbad n
      exact register_of_failed hrun (by rw [Engine.outcome, if_pos ⟨hbad.2, Or.inl hbad.1⟩])
    · have hserves : ∀ c, Engine.Plain c → (Engine.mdio settings).Serves m.faults c := by
        intro c _
        exact ⟨hphy, (Decidable.not_and_iff_or_not.mp hbad).imp eq_false_of_ne_true eq_false_of_ne_true⟩
      refine register_of_served hserves ?_
      rw [Engine.outcome, if_neg, if_neg (not_not_intro hphy)]
      rintro ⟨hstrict, hstall | hother⟩
      · exact hbad ⟨hstall, hstrict⟩
      · exact hother hphy

end

/-- Bringing up a chip that was just powered up finds exactly the chip that it is made to look like, or fails
    with the error for what is wrong with it. Over MDIO, a chip that the engine misses is left alone. -/
theorem register_eq_outcome (e : Engine) (m : Model) (n : Nat) :
    ((runOn e.device register (n, .new m)).1 = e.outcome m ∧
      ∀ config, e.outcome m = .ok config →
        (runOn e.device register (n, .new m)).2.2.store.mode.getLsbD 1 = true) ∧
      ∀ settings, e = .mdio settings → settings.phy ≠ PseudoPhy.defaultPhy →
        ∃ elapsed, (runOn e.device register (n, .new m)).2.2 = { Simulation.new m with elapsed } := by
  cases e with
  | spi => exact ⟨register_of_attached trivial, fun settings h => nomatch h⟩
  | mdio settings =>
    by_cases hphy : settings.phy = PseudoPhy.defaultPhy
    · refine ⟨register_of_attached hphy, fun settings' h hother => ?_⟩
      cases h
      exact absurd hphy hother
    · obtain ⟨k, elapsed, hrun⟩ := register_of_other hphy n (.new m)
      refine ⟨register_of_failed hrun ?_, fun _ _ _ => ⟨elapsed, by rw [hrun]⟩⟩
      cases hstrict : settings.strict with
      | true =>
        rw [Engine.outcome, if_pos ⟨hstrict, Or.inr hphy⟩]
        rfl
      | false =>
        rw [Engine.outcome, if_neg fun h => absurd (hstrict.symm.trans h.1) (by decide), if_pos hphy]
        rfl

/-- One zero more before the id shows, and a BCM53115 is brought up as another chip. -/
theorem register_eq_outcome_hidden :
    (runOn Engine.spi.device register (0, .new { Model.ofChip .bcm53115 with zeroIdReads := 9 })).1 =
        .ok (.initial ⟨.bcm53115, 0⟩) ∧
      (runOn Engine.spi.device register (0,
        .new { Model.ofChip .bcm53115 with zeroIdReads := 9 })).2.2.store.mode.getLsbD 1 =
        true ∧
      (runOn Engine.spi.device register (0, .new { Model.ofChip .bcm53115 with zeroIdReads := 10 })).1 =
        .ok (.initial ⟨.bcm5325M, 0⟩) ∧
      (runOn (Engine.mdio { phy := 0 }).device register (0, .new (.ofChip .bcm53115))).1 =
        .error (.unknownChip 0xffff) := by
  obtain ⟨⟨hfound, hon⟩, -⟩ := register_eq_outcome .spi { Model.ofChip .bcm53115 with zeroIdReads := 9 } 0
  obtain ⟨⟨hlate, -⟩, -⟩ := register_eq_outcome .spi { Model.ofChip .bcm53115 with zeroIdReads := 10 } 0
  obtain ⟨⟨hmissed, -⟩, -⟩ := register_eq_outcome (.mdio { phy := 0 }) (.ofChip .bcm53115) 0
  exact ⟨hfound, hon _ rfl, hlate, hmissed⟩

end Switch

end EtherSwitch
