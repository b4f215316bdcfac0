import EtherSwitch.Device.Recorded
import EtherSwitch.Proofs.Resuming

/-! Applying a configuration twice. If it succeeds once, then after any number of operations that only look it
    succeeds again, with the same register accesses, and changes nothing any more
    (`Switch.applyConfig_idempotent`). That it succeeds tells that the engine serves all accesses to the chip
    (`Engine.serves_of_read`), so nothing else is asked of the chip but that forwarding stays on. -/

namespace EtherSwitch
open Script

/-! ### The accesses of a script -/

namespace Script
variable {α σ : Type} {d : Device Registers σ}

/-- The access that makes a write. -/
def Put.call (p : Put) : Registers.Call := .write p.address p.value

theorem calls_read8 (d : Device Registers σ) (l : Location) (s : Recorded Registers σ) :
    (runOn (Device.recorded d) (read8 l) s).2.calls = s.calls ++ [.read ⟨l, .bits8⟩] := by
  rw [read8, runOn_bind, runOn_read]
  unfold Device.recorded
  rcases d (.read ⟨l, .bits8⟩) s.device with ⟨answer, t⟩
  cases answer with
  | error e => rfl
  | ok value => rfl

/-- Writes that all go through are all made, in order. -/
theorem calls_emit {puts : List Put} {s t : Recorded Registers σ}
    (h : runOn (Device.recorded d) (emit puts) s = (.ok (), t)) :
    t.calls = s.calls ++ puts.map Put.call := by
  induction puts generalizing s with
  | nil =>
    obtain rfl : s = t := congrArg Prod.snd h
    exact (List.append_nil _).symm
  | cons p puts ih =>
    rw [emit_cons] at h
    obtain ⟨_, u, hwrite, hrest⟩ := ok_of_runOn_bind h
    have hcall : u.calls = s.calls ++ [p.call] := congrArg (·.2.calls) hwrite.symm
    rw [ih hrest, hcall, List.map_cons, List.append_assoc, List.singleton_append]

/-- If a script that reads first succeeds, that read did. -/
theorem ReadsFirst.answered {P : Registers.Call → Prop} {p : Script α} (hp : Uses P p) (hread : p.ReadsFirst)
    {s : σ} {a : α} (hok : (runOn d p s).1 = .ok a) : ∃ address value, P (.read address) ∧
      (d (.read address) s).1 = .ok value := by
  obtain ⟨address, k, hrun⟩ := hread
  have hcalls := hp.calls
  have hprompt := hp.prompt
  rw [hrun] at hcalls hprompt
  rw [runOn, hrun, Program.run_ask] at hok
  refine ⟨address, ?_⟩
  rcases hanswer : (d (.read address) s).1 with e | value
  · obtain ⟨result, hend, rfl⟩ := hprompt.1 _ rfl e
    rw [hanswer, hend] at hok
    cases hok
  · exact ⟨value, hcalls.1, rfl⟩

end Script

/-- An engine that has answered one plain read serves all plain accesses. -/
theorem Engine.serves_of_read {e : Engine} (he : e.Attached) {address : Address}
    (hplain : Plain (.read address)) {n : Nat}
    {s : Simulation} {value : BitVec 64} (hok : (e.device (.read address) (n, s)).1 = .ok value)
    (call : Registers.Call) (hcall : Plain call) : e.Serves s.faults call := by
  cases e with
  | mdio settings =>
    obtain ⟨m, u, hu, -, -, -⟩ := PseudoPhy.device_read he address n s
    rw [device, across, hu] at hok
    refine ⟨he, ?_⟩
    by_cases hbad : s.faults.stallMdio = true ∧ settings.strict = true
    · rw [if_pos hbad] at hok
      cases hok
    · rw [Decidable.not_and_iff_or_not] at hbad
      exact hbad.imp eq_false_of_ne_true eq_false_of_ne_true
  | spi =>
    refine ⟨?_, hcall⟩
    cases hack : s.faults.neverAckSpi with
    | false => rfl
    | true =>
      obtain ⟨u, hu, -, -⟩ := SpiFrames.device_read_of_unacknowledged (a := address) hplain hack
      have htimeout : (Engine.spi.device (.read address) (n, s)).1 = .error (.spiTimeout address.location) :=
        congrArg Prod.fst hu
      cases hok.symm.trans htimeout

namespace Switch

/-- The register accesses that an operation makes. -/
def issued {σ : Type} (d : Device Registers σ) (op : Operation) (s : Config × σ) : List Registers.Call :=
  (layer.device (Device.recorded d) op (s.1, .fresh s.2)).2.2.calls

theorem issued_applyConfig {σ : Type} {d : Device Registers σ} {c : Config} (hc : c.WellFormed) {s : σ}
    {mode : BitVec 8} (hmode : (runOn d (read8 Layout.switchMode) s).1 = .ok mode)
    (hok : (runOn d (applyConfig c) s).1 = .ok ()) :
    issued d .applyConfig (c, s) = .read ⟨Layout.switchMode, .bits8⟩ :: (c.puts mode).map Put.call := by
  have hsame : ∀ {α : Type} (p : Script α), (runOn (Device.recorded d) p (.fresh s)).1 =
      (runOn d p s).1 := fun p =>
    (run_recorded d p.run (.fresh s)).1
  rw [← hsame] at hmode hok
  rw [issued, device_applyConfig]
  rw [applyConfig_eq hc] at hok ⊢
  obtain ⟨found, t, hread, hemit⟩ := ok_of_runOn_bind (Prod.ext hok rfl)
  obtain rfl : found = mode := Except.ok.inj ((congrArg Prod.fst hread).symm.trans hmode)
  have hfirst : t.calls = [.read ⟨Layout.switchMode, .bits8⟩] :=
    (congrArg (·.2.calls) hread).symm.trans (calls_read8 d Layout.switchMode (.fresh s))
  rw [calls_emit hemit, hfirst, List.singleton_append]

section
variable {c : Config} {e : Engine} {s : Simulation}

/-- Operations that only look leave the configuration and the faults alone and only read the store. -/
theorem serve_looks (he : e.Attached) {looks : List Operation} (hlooks : ∀ op ∈ looks, op.looks = true)
    (c : Config) (t : Nat × Simulation) :
    (serve e.device looks (c, t)).1 = c ∧ t.2.store.OnlyRead (serve e.device looks (c, t)).2.2.store ∧
      (serve e.device looks (c, t)).2.2.faults = t.2.faults := by
  refine serve_keeps (P := fun op => op.looks = true)
    (K := fun u : Config × Nat × Simulation => u.1 = c ∧ t.2.store.OnlyRead u.2.2.store ∧
      u.2.2.faults = t.2.faults) ?_ hlooks
    ⟨rfl, Store.onlyRead_refl _, rfl⟩
  rintro op ⟨c', n, u⟩ hop ⟨rfl, hstore, hfaults⟩
  have hkept : op.configures = false := by cases op <;> first | rfl | cases hop
  obtain ⟨hread, hsame⟩ := device_looks he hop c' n u
  refine ⟨?_, hstore.trans hread, hsame.trans hfaults⟩
  rw [config_eq_after, after_of_not_configures hkept]

/-- What applying a configuration does on a chip of which the engine serves all accesses. -/
theorem applyConfig_served (hc : c.WellFormed) (hserves : ∀ call, Engine.Plain call → e.Serves s.faults call)
    (n : Nat) :
    (layer.device e.device .applyConfig (c, n, s)).1 = .ok () ∧
      (layer.device e.device .applyConfig (c, n, s)).2.1 = c ∧
      (layer.device e.device .applyConfig (c, n, s)).2.2.2.store =
        s.store.writeAll (c.writes s.store) ∧
      (layer.device e.device .applyConfig (c, n, s)).2.2.2.faults = s.faults ∧
      issued e.device .applyConfig (c, n, s) = .read ⟨Layout.switchMode, .bits8⟩ ::
        (c.puts ((s.store.registers Layout.switchMode).setWidth 8)).map Put.call := by
  obtain ⟨hok, hstore⟩ :=
    Engine.runOn_does_of_readsFirst hserves rfl (uses_applyConfig hc) (readsFirst_applyConfig hc)
    (does_applyConfig hc s.store) n
  obtain ⟨hmode, -⟩ := Engine.runOn_does_of_readsFirst hserves rfl (uses_read8 (by unfold Engine.Plain; decide))
    (readsFirst_read8 Layout.switchMode) (Store.does_read8 (by decide)) n
  have hfaults := Program.run_keeps (d := e.device) (K := fun u => u.2.faults = s.faults)
    (fun call u _ hu => (Engine.device_faults e call u.1 u.2).trans hu)
      (applyConfig c).run.calls_true (s := (n, s)) rfl
  rw [device_applyConfig]
  exact ⟨hok, rfl, hstore, hfaults, issued_applyConfig hc hmode hok⟩

/-- If applying a configuration succeeds, then, after any operations that only look, applying it again succeeds
    with the same register accesses, of which the chip logs the same writes, and leaves all registers and the
    VLAN table as they are. This holds whatever was in the chip and whatever is wrong with it otherwise, as long
    as forwarding stays on. -/
theorem applyConfig_idempotent (hc : c.Reachable) (he : e.Attached) (hchip : s.store.chip = some c.chip)
    (hforwards : s.store.forwardStuck = false) {n : Nat} {c' : Config} {t : Nat × Simulation}
    (hfirst : layer.device e.device .applyConfig (c, n, s) = (.ok (), c', t)) {looks : List Operation}
    (hlooks : ∀ op ∈ looks, op.looks = true) :
    (layer.device e.device .applyConfig (serve e.device looks (c', t))).1 = .ok () ∧
      (layer.device e.device .applyConfig (serve e.device looks (c', t))).2.1 = c ∧
      issued e.device .applyConfig (serve e.device looks (c', t)) = issued e.device .applyConfig (c, n, s) ∧
      (∃ made, t.2.store.writes = s.store.writes ++ made ∧
        (layer.device e.device .applyConfig (serve e.device looks (c', t))).2.2.2.store.writes =
          t.2.store.writes ++ made) ∧
      (layer.device e.device .applyConfig (serve e.device looks (c', t))).2.2.2.store.SameContent
        t.2.store := by
  have hwell := hc.wellFormed
  have hhealthy : s.store.Healthy c.chip := ⟨hchip, hforwards⟩
  have hok : (runOn e.device (applyConfig c) (n, s)).1 = .ok () := by
    rw [device_applyConfig] at hfirst
    exact congrArg Prod.fst hfirst
  -- The first success tells that the engine serves the chip.
  obtain ⟨address, value, hplain, hanswer⟩ :=
    (readsFirst_applyConfig hwell).answered (uses_applyConfig hwell) hok
  have hserves := Engine.serves_of_read he hplain hanswer
  obtain ⟨-, hconfig, hstore, hfaults, hissued⟩ := applyConfig_served hwell hserves n
  rw [hfirst] at hconfig hstore hfaults
  obtain rfl : c' = c := hconfig
  obtain ⟨hsame, hread, hfaults'⟩ := serve_looks he hlooks c' t
  generalize serve e.device looks (c', t) = r at *
  obtain ⟨c, m, v⟩ := r
  obtain rfl : c = c' := hsame
  obtain ⟨k, -, hv⟩ := hread
  have hserves' : ∀ call, Engine.Plain call → e.Serves v.faults call := fun call hcall => by
    rw [show v.faults = s.faults from hfaults'.trans hfaults]
    exact hserves call hcall
  obtain ⟨hagain, hkept, hstore', -, hissued'⟩ := applyConfig_served hwell hserves' m
  have hend := hwell.applyAlike_partway hhealthy List.prefix_rfl
  rw [← hstore] at hend
  have halike : c.ApplyAlike v.store s.store := by
    rw [hv]
    exact ⟨hend.mode, hend.others, hend.entries⟩
  have hended : t.2.store.Healthy c.chip := hstore ▸ hhealthy.writeAll _
  have hhealthy' : v.store.Healthy c.chip := by
    rw [hv]
    exact ⟨hended.chip, hended.forwards⟩
  obtain ⟨hputs, hcontent⟩ := halike.sameContent hwell hhealthy' hhealthy
  rw [← hstore', ← hstore] at hcontent
  refine ⟨hagain, hkept, ?_, ⟨c.writes s.store, ?_, ?_⟩, hcontent⟩
  · rw [hissued', hissued, hputs]
  · exact (congrArg Store.writes hstore).trans (Store.writes_writeAll _ _)
  · rw [hstore', Config.writes, hputs, Store.writes_writeAll]
    exact congrArg (·.writes ++ _) hv

end

/-- A BCM5397 with VLANs on, of which one VLAN has members. -/
def tagged : Config :=
  Operation.after (.setVlanPorts 5 [⟨2, true⟩, ⟨8, true⟩])
    (Operation.after (.setVlanEnabled true) (.initial ⟨.bcm5397, 0⟩))

theorem tagged_reachable : tagged.Reachable := ((Config.Reachable.initial _).after _).after _

/-- A BCM5397 whose MDIO operations never complete, which an engine that does not wait for
    them does not notice. -/
def stalled : Simulation := .new { Model.ofChip .bcm5397 with faults := { stallMdio := true } }

/-- What is looked at between the two times; there is no port 9. -/
def glances : List Operation := [.portLink 0, .readRegister ⟨Layout.deviceId, .bits8⟩, .portLink 9]

theorem applyConfig_idempotent_stalled :
    ∃ t, layer.device (Engine.mdio {}).device .applyConfig (tagged, 0, stalled) = (.ok (), tagged, t) ∧
      (layer.device (Engine.mdio {}).device .applyConfig
        (serve (Engine.mdio {}).device glances (tagged, t))).1 = .ok () ∧
      (layer.device (Engine.mdio {}).device .applyConfig
        (serve (Engine.mdio {}).device glances (tagged, t))).2.1 = tagged ∧
      issued (Engine.mdio {}).device .applyConfig (serve (Engine.mdio {}).device glances (tagged, t)) =
        issued (Engine.mdio {}).device .applyConfig (tagged, 0, stalled) ∧
      (∃ made, t.2.store.writes = stalled.store.writes ++ made ∧
        (layer.device (Engine.mdio {}).device .applyConfig
          (serve (Engine.mdio {}).device glances (tagged, t))).2.2.2.store.writes = t.2.store.writes ++ made) ∧
      (layer.device (Engine.mdio {}).device .applyConfig
        (serve (Engine.mdio {}).device glances (tagged, t))).2.2.2.store.SameContent t.2.store := by
  have hmdio : (Engine.mdio {}).Attached := rfl
  have hserves : ∀ call, Engine.Plain call → (Engine.mdio {}).Serves stalled.faults call :=
    fun _ _ => ⟨rfl, Or.inr rfl⟩
  obtain ⟨hok, hsame, -⟩ := applyConfig_served tagged_reachable.wellFormed hserves 0
  generalize hfirst :
    layer.device (Engine.mdio {}).device .applyConfig (tagged, 0, stalled) = first at hok hsame
  obtain ⟨answer, c, t⟩ := first
  obtain rfl : answer = .ok () := hok
  obtain rfl : c = tagged := hsame
  have hlooks : ∀ op ∈ glances, op.looks = true := by decide
  exact ⟨t, rfl, applyConfig_idempotent tagged_reachable hmdio rfl rfl hfirst hlooks⟩

end Switch

end EtherSwitch
