import EtherSwitch.Device.Bench
import EtherSwitch.Proofs.Engine

/-! A write whose bus calls fail from some point on has been carried out as a whole or not at all. The record
    of the bench names the call that failed (`Program.run_onBench_of_prompt`), and the state that it left is
    the one in which a bus without failures is asked it. Over MDIO what comes before the polls leaves the chip
    alone but for the very last call, and the polls leave it alone, too (`PseudoPhy.makes_write`); over SPI
    the last call is the only one that reaches it. -/

namespace EtherSwitch

/-! ### The call that failed -/

section
variable {I : Interface} {α ε σ : Type} [Refusable I ε]

/-- The last call on the record is `c`. It was refused with `err`, and under the plan no call before it was. -/
structure Bench.StoppedAt (b : Bench I ε σ) (plan : FaultPlan ε) (c : I.Call) (err : ε) : Prop where
  last : ∃ before, b.calls = before ++ [c]
  refusable : (Refusable.refusal c).isSome
  number : ∃ i, b.device.made = i + 1 ∧ plan i = some err ∧ ∀ j < i, plan j = none

/-- If all calls but the first `n` fail, it was call number `n`. -/
theorem Bench.StoppedAt.made_of_after {b : Bench I ε σ} {n : Nat} {e err : ε} {c : I.Call}
    (h : b.StoppedAt (.after n e) c err) :
    b.device.made = n + 1 := by
  obtain ⟨i, hmade, hrefused, hpassed⟩ := h.number
  have hle : n ≤ i := Nat.not_lt.mp fun hlt => by
    rw [FaultPlan.after, if_neg (Nat.not_le.mpr hlt)] at hrefused
    cases hrefused
  have hge : i ≤ n := Nat.not_lt.mp fun hlt => by
    have hnone := hpassed n hlt
    rw [FaultPlan.after, if_pos (Nat.le_refl n)] at hnone
    cases hnone
  rw [hmade, Nat.le_antisymm hge hle]

/-- If no call was refused yet, a prompt program on a bench answers as on the device itself, or it is stopped:
    by a call that its run on the device itself makes, too, and in the state in which it makes it. -/
theorem Program.run_onBench_of_prompt (d : Device I σ) {E : ε → α → Prop} {p : Program I α} (hp : p.Prompt E)
    {b : Bench I ε σ} (hb : ∀ i < b.device.made, b.device.plan i = none) :
    (run d.onBench p b).1 = (run d p b.device.device).1 ∨
      ∃ c err, E err (run d.onBench p b).1 ∧ (run d.onBench p b).2.StoppedAt b.device.plan c err ∧
        p.Makes d b.device.device c (run d.onBench p b).2.device.device := by
  induction p generalizing b with
  | done a => exact Or.inl rfl
  | ask c k ih =>
    obtain ⟨calls, ⟨plan, made, s⟩⟩ := b
    have hbench : d.onBench c ⟨calls, ⟨plan, made, s⟩⟩ =
        ((d.faulty c ⟨plan, made, s⟩).1, ⟨calls ++ [c], (d.faulty c ⟨plan, made, s⟩).2⟩) := rfl
    rw [run_ask, run_ask, hbench]
    cases hr : Refusable.refusal c with
    | none =>
      have hpass : d.faulty c ⟨plan, made, s⟩ = ((d c s).1, ⟨plan, made, (d c s).2⟩) := by
        simp only [Device.faulty, hr]
      rw [hpass]
      rcases ih _ (hp.2 _) (b := ⟨calls ++ [c], ⟨plan, made, (d c s).2⟩⟩) hb with hsame |
        ⟨c', err, he, hstop, hmakes⟩
      · exact Or.inl hsame
      · exact Or.inr ⟨c', err, he, hstop, Or.inr hmakes⟩
    | some refuse =>
      cases hplan : plan made with
      | none =>
        have hpassed : ∀ i < made + 1, plan i = none := by
          intro i hi
          rcases Nat.lt_succ_iff_lt_or_eq.mp hi with hi | rfl
          · exact hb i hi
          · exact hplan
        rw [faulty_of_passed hr d hplan]
        rcases ih _ (hp.2 _) (b := ⟨calls ++ [c], ⟨plan, made + 1, (d c s).2⟩⟩) hpassed with hsame |
          ⟨c', err, he, hstop, hmakes⟩
        · exact Or.inl hsame
        · exact Or.inr ⟨c', err, he, hstop, Or.inr hmakes⟩
      | some err =>
        obtain ⟨a, hdone, he⟩ := hp.1 refuse hr err
        rw [faulty_of_refused hr d hplan, hdone]
        exact Or.inr ⟨c, err, he, ⟨⟨calls, rfl⟩, by rw [hr]; rfl, made, rfl, hplan, hb⟩, Or.inl ⟨rfl, rfl⟩⟩

end

/-! ### Over MDIO -/

namespace PseudoPhy
variable {α β σ : Type} {d : Device MdioBus σ}

/-- A transaction of two parts makes a call in the first one or, if that succeeds, in the second. -/
theorem makes_bind {t : Transaction α} {f : α → Transaction β} {n : Nat} {s u : σ} {c : MdioBus.Call}
    (h : ((t >>= f).run.run n).Makes d s c u) :
    (t.run.run n).Makes d s c u ∨ ∃ a m v, runOn d t (n, s) = (.ok a, m, v) ∧
      ((f a).run.run m).Makes d v c u := by
  have hbind : (t.run.run n).Makes d s c u ∨ ((ExceptT.bindCont f (Program.run d (t.run.run n) s).1.1).run
      (Program.run d (t.run.run n) s).1.2).Makes d (Program.run d (t.run.run n) s).2 c u :=
    Program.makes_bind.mp h
  refine hbind.imp_right fun hsecond => ?_
  rw [runOn]
  rcases hfirst : Program.run d (t.run.run n) s with ⟨⟨e | a, m⟩, v⟩
  · rw [hfirst] at hsecond
    exact False.elim hsecond
  · rw [hfirst] at hsecond
    exact ⟨a, m, v, rfl, hsecond⟩

section
variable {P : MdioBus.Call → Prop} (hP : ∀ c, P c → ∀ s, (Simulation.mdio c s).2.store = s.store)
    {t : Transaction α} (ht : Uses P t)
  {n : Nat} {s u : Simulation}
include hP ht

/-- A transaction whose calls do not reach the store leaves it alone. -/
theorem runOn_store : (runOn Simulation.mdio t (n, s)).2.2.store = s.store :=
  Program.run_keeps (K := fun v : Simulation => v.store = s.store) (fun c v hc hv => (hP c hc v).trans hv)
    (ht.calls n) rfl

/-- Each of its calls meets the store as it was. -/
theorem makes_store {c : MdioBus.Call} (h : (t.run.run n).Makes Simulation.mdio s c u) :
    P c ∧ u.store = s.store :=
  h.keeps (K := fun v : Simulation => v.store = s.store) (fun c v hc hv => (hP c hc v).trans hv)
    (ht.calls n) rfl

end

section
variable (settings : Settings)

/-- What a write does before it issues its operation. -/
def Settings.prepare (a : Address) (value : BitVec 64) : Transaction Unit := do
  settings.selectPage a.location.page
  settings.load (Word.limbs 16 (chunks a.width) (a.width.truncate value))

theorem write_eq (a : Address) (value : BitVec 64) :
    settings.write a value = (do
      settings.prepare a value
      writeWord settings.phy addressRegister (a.location.offset.toBitVec ++ Operation.write.code)
      settings.wait a.location) := by
  rw [Settings.write, Settings.prepare, operate_eq, bind_assoc]

/-- Such calls write registers other than the one that issues operations. -/
def Settings.Prepares (c : MdioBus.Call) : Prop :=
  ∃ register word, register ≠ addressRegister ∧ c = .write settings.phy register word

theorem uses_prepare (a : Address) (value : BitVec 64) : Uses settings.Prepares (settings.prepare a value) := by
  have hwrite : ∀ register word, register ≠ addressRegister →
      settings.Prepares (.write settings.phy register word) :=
    fun register word hne => ⟨register, word, hne, rfl⟩
  refine (uses_selectPage hwrite _).bind fun _ => uses_load hwrite ?_
  rw [Word.length_limbs]
  exact chunks_le _

theorem prepares_store (c : MdioBus.Call) (hc : settings.Prepares c) (s : Simulation) :
    (Simulation.mdio c s).2.store = s.store := by
  obtain ⟨register, word, hne, rfl⟩ := hc
  exact (Simulation.mdio_store settings).write register word hne s

/-- The call that asks whether the operation under way has completed. -/
def Settings.poll : MdioBus.Call := .read settings.phy addressRegister

/-- The calls made once an operation is issued. -/
def Settings.Waits (c : MdioBus.Call) : Prop := c = settings.poll ∨ c = .delay pollDelay

theorem waits_store (c : MdioBus.Call) (hc : settings.Waits c) (s : Simulation) :
    (Simulation.mdio c s).2.store = s.store := by
  rcases hc with rfl | rfl
  · exact (Simulation.mdio_store settings).read _ s
  · rfl

/-- A call of a write that may be refused meets the store as it was before the write; only a
    poll meets it as it is afterwards. -/
theorem makes_write (a : Address) (value : BitVec 64) {n : Nat} {s u : Simulation} {c : MdioBus.Call}
    (hc : (Refusable.refusal (I := MdioBus) c).isSome)
    (h : ((settings.layer (.write a value)).run n).Makes Simulation.mdio s c u) :
    u.store = if c = settings.poll
      then (settings.layer.device Simulation.mdio (.write a value) (n, s)).2.2.store
      else s.store := by
  have hwait : Uses settings.Waits (settings.wait a.location) := uses_wait (Or.inl rfl) (Or.inr rfl) _
  have hmakes : ((settings.write a value).run.run n).Makes Simulation.mdio s c u := h
  rw [write_eq] at hmakes
  rw [device_write_eq, write_eq]
  rcases makes_bind hmakes with hprepares | ⟨_, n₁, s₁, hprepared, hmakes⟩
  · obtain ⟨⟨register, word, -, rfl⟩, hstore⟩ :=
      makes_store (prepares_store settings) (uses_prepare settings a value) hprepares
    rw [if_neg (by simp [Settings.poll])]
    exact hstore
  · have hstore : s₁.store = s.store := by
      have hkept := runOn_store (n := n) (s := s) (prepares_store settings) (uses_prepare settings a value)
      rwa [hprepared] at hkept
    rcases makes_bind hmakes with hissues | ⟨_, n₂, s₂, hissued, hmakes⟩
    · rcases hissues with ⟨rfl, rfl⟩ | hmakes
      · rw [if_neg (by simp [Settings.poll])]
        exact hstore
      · exact False.elim hmakes
    · obtain ⟨hwaits, hstore⟩ := makes_store (waits_store settings) hwait hmakes
      rcases hwaits with rfl | rfl
      · rw [if_pos rfl, runOn_bind_ok hprepared, runOn_bind_ok hissued,
          runOn_store (waits_store settings) hwait]
        exact hstore
      · cases hc

end

end PseudoPhy

/-! ### Over SPI -/

/-- Every call of a write meets the chip as it was before the write. -/
theorem SpiFrames.makes_write (a : Address) (value : BitVec 64) {s u : Simulation} {c : SpiBus.Call}
    (h : ((layer (.write a value)).run ()).Makes Simulation.spi s c u) : u.store = s.store := by
  have hselect := (uses_selectPage Simulation.spi_store a.location.page).calls
  have hkeeps : ∀ c u, (∀ s, (Simulation.spi c s).2.store = s.store) → u.store = s.store →
      (Simulation.spi c u).2.store = s.store := fun c u hc hu => (hc u).trans hu
  have hwrite : (write a value).run.Makes Simulation.spi s c u := (Program.makes_bind.mp h).resolve_right id
  rcases Program.makes_of_bind hwrite with h | ⟨_, v, hfirst, h⟩
  · exact (h.keeps hkeeps hselect rfl).2
  · have hstore : v.store = s.store := by
      have hrun := Program.run_keeps (K := fun u : Simulation => u.store = s.store) hkeeps hselect (s := s) rfl
      rwa [hfirst] at hrun
    rcases h with ⟨-, rfl⟩ | h
    · exact hstore
    · exact False.elim h

/-! ### The writes -/

/-- The simulated chip on the bench: every call fails but the first `n`. -/
def Simulation.failingAfter {I : Interface} (n : Nat) (cause : IoError) (s : Simulation) :
    Bench I IoError Simulation :=
  Recorded.fresh (.start (.after n cause) s)

/-- A write whose bus calls all fail from some point on and that ends with the bus's error, on a simulated
    chip after any accesses, has left registers, VLAN table and record of writes as they were, or as the whole
    write leaves them: over MDIO the latter if it was a poll that failed, over SPI never. -/
theorem write_all_or_nothing {s : Simulation} (hs : s.Reachable) (a : Address) (value : BitVec 64) (n : Nat)
    (cause : IoError) :
    (∀ (settings : PseudoPhy.Settings) (m m' : Nat) (b : Bench MdioBus IoError Simulation),
      settings.phy = PseudoPhy.defaultPhy →
      settings.layer.device Simulation.mdio.onBench (.write a value) (m, s.failingAfter n cause) =
        (.error (.io cause), m', b) →
      ∃ before failing whole, b.calls = before ++ [failing] ∧ b.device.made = n + 1 ∧
        (settings.layer.device Simulation.mdio (.write a value) (m, s)).2.2.store = whole ∧
        whole.writes = s.store.writes ++ [⟨a.location, a.width.truncate value⟩] ∧
        b.device.device.store = if failing = settings.poll then whole else s.store) ∧
    ∀ b : Bench SpiBus IoError Simulation, a.location.offset ∉ SpiFrames.reserved →
      SpiFrames.layer.device Simulation.spi.onBench (.write a value) ((), s.failingAfter n cause) =
        (.error (.io cause), (), b) →
      b.device.made = n + 1 ∧ b.device.device.store = s.store := by
  have hfresh : ∀ {I : Interface}, ∀ i < (s.failingAfter (I := I) n cause).device.made,
      (s.failingAfter (I := I) n cause).device.plan i = none := fun i hi => absurd hi (Nat.not_lt_zero i)
  constructor
  · intro settings m m' b hphy hrun
    obtain ⟨k, u, hwhole, hstore, -⟩ := PseudoPhy.device_write hphy a value m s
    rcases Program.run_onBench_of_prompt Simulation.mdio
      (PseudoPhy.prompt_layer settings (.write a value) m) hfresh with
      hsame | ⟨failing, err, -, hstop, hmakes⟩
    · -- Without a refused call the write ends with the bus's error on no chip.
      have hanswer : (settings.layer.device Simulation.mdio (.write a value) (m, s)).1 = .error (.io cause) :=
        (congrArg Prod.fst hsame).symm.trans (congrArg Prod.fst hrun)
      rw [hwhole] at hanswer
      split at hanswer <;> cases hanswer
    · obtain rfl := congrArg (fun r => r.2.2) hrun
      obtain ⟨before, hcalls⟩ := hstop.last
      refine ⟨before, failing, _, hcalls, hstop.made_of_after, rfl, ?_,
        PseudoPhy.makes_write settings a value hstop.refusable hmakes⟩
      rw [hwhole, hstore hs.settled]
      exact Store.writes_writeAll s.store [⟨a.location, a.width.truncate value⟩]
  · intro b hplain hrun
    obtain ⟨u, hwhole, -⟩ := SpiFrames.device_write (s := s) hplain value
    rcases Program.run_onBench_of_prompt Simulation.spi (SpiFrames.prompt_layer (.write a value)) hfresh with
      hsame | ⟨failing, err, -, hstop, hmakes⟩
    · have hanswer : (SpiFrames.layer.device Simulation.spi (.write a value) ((), s)).1 = .error (.io cause) :=
        (congrArg Prod.fst hsame).symm.trans (congrArg Prod.fst hrun)
      rw [hwhole] at hanswer
      cases hanswer
    · obtain rfl := congrArg (fun r => r.2.2) hrun
      exact ⟨hstop.made_of_after, SpiFrames.makes_write a value hmakes⟩

/-- A write of 32 bits over MDIO, all of whose calls but the first `n` fail. -/
def brokenOff (n : Nat) : Except Error Unit × Nat × Bench MdioBus IoError Simulation :=
  ({} : PseudoPhy.Settings).layer.device Simulation.mdio.onBench (.write ⟨⟨16, 1⟩, .bits32⟩ 0xcafef00d)
    (0, (Simulation.new .standard).failingAfter n .injected)

/-- The same write over SPI. -/
def brokenOffSpi (n : Nat) : Except Error Unit × Unit × Bench SpiBus IoError Simulation :=
  SpiFrames.layer.device Simulation.spi.onBench (.write ⟨⟨16, 1⟩, .bits32⟩ 0xcafef00d)
    ((), (Simulation.new .standard).failingAfter n .injected)

/-- Its fourth call issues the operation and its fifth is the first poll; over SPI the
    second call is the last. -/
theorem write_all_or_nothing_brokenOff :
    (Simulation.new .standard).Reachable ∧
      (brokenOff 3).1 = .error (.io .injected) ∧
        (brokenOff 3).2.2.device.device.store = (Simulation.new .standard).store ∧
      (brokenOff 4).1 = .error (.io .injected) ∧
        (brokenOff 4).2.2.device.device.store.writes = [⟨⟨16, 1⟩, 0xcafef00d⟩] ∧
      (brokenOffSpi 1).1 = .error (.io .injected) ∧
      (brokenOffSpi 1).2.2.device.device.store = (Simulation.new .standard).store := by
  have hs := Simulation.reachable_new .standard
  obtain ⟨before, issue, whole, hcalls, -, -, -, hissue⟩ :=
    (write_all_or_nothing hs ⟨⟨16, 1⟩, .bits32⟩ 0xcafef00d 3 .injected).1 {} 0 0 (brokenOff 3).2.2 rfl rfl
  obtain ⟨before', poll, whole', hcalls', -, -, hwrites, hpoll⟩ :=
    (write_all_or_nothing hs ⟨⟨16, 1⟩, .bits32⟩ 0xcafef00d 4 .injected).1 {} 0 0 (brokenOff 4).2.2 rfl rfl
  obtain ⟨-, hsend⟩ :=
    (write_all_or_nothing hs ⟨⟨16, 1⟩, .bits32⟩ 0xcafef00d 1 .injected).2 (brokenOffSpi 1).2.2 (by decide) rfl
  have hlast : (brokenOff 3).2.2.calls.getLast? = some (.write 0x1e 0x11 0x0101) := rfl
  have hlast' : (brokenOff 4).2.2.calls.getLast? = some (PseudoPhy.Settings.poll {}) := rfl
  rw [hcalls, List.getLast?_concat] at hlast
  rw [hcalls', List.getLast?_concat] at hlast'
  obtain rfl := Option.some.inj hlast
  obtain rfl := Option.some.inj hlast'
  rw [if_neg (by decide)] at hissue
  rw [if_pos rfl] at hpoll
  exact ⟨hs, rfl, hissue, rfl, hpoll ▸ hwrites, rfl, hsend⟩

end EtherSwitch
