import EtherSwitch.Bus.Scripted
import EtherSwitch.Proofs.Mdio
import EtherSwitch.Proofs.Spi

/-! Register accesses over scripted buses. A wait uses up the polls of the script up to the first that ends it,
    and nothing uses up its data, so every access is known from the script (`PseudoPhy.device_scripted`,
    `SpiFrames.device_read_scripted`). Each operation that is counted as not completed has used up five polls
    (`PseudoPhy.counted_scripted`). -/

namespace EtherSwitch

namespace BusScript
variable {α : Type} {done : α → Bool} {rest : α} {s : BusScript α}

/-- How many polls come before the first that is `done`. -/
def early (done : α → Bool) (s : BusScript α) : Nat := (s.polls.takeWhile fun p => !done p).length

/-- The script behind a wait for a poll that is `done`, of at most `limit` polls. -/
def waited (done : α → Bool) (limit : Nat) (s : BusScript α) : BusScript α :=
  { s with polls := s.polls.drop (min limit (s.early done + 1)) }

theorem waited_zero : s.waited done 0 = s := by simp [waited]

theorem poll_done (limit : Nat) (h : done (s.poll rest).1 = true) :
    s.early done = 0 ∧ s.waited done (limit + 1) = (s.poll rest).2 := by
  obtain ⟨_ | ⟨p, polls⟩, data⟩ := s
  · exact ⟨rfl, by simp [waited, poll]⟩
  · have hp : done p = true := h
    simp [early, waited, poll, hp]

theorem poll_early (limit : Nat) (hrest : done rest = true) (h : done (s.poll rest).1 = false) :
    s.early done = (s.poll rest).2.early done + 1 ∧
      s.waited done (limit + 1) = (s.poll rest).2.waited done limit := by
  obtain ⟨_ | ⟨p, polls⟩, data⟩ := s
  · -- A script that is used up answers `rest`, which would end the wait.
    exact absurd hrest (by simpa [poll] using h)
  · have hp : done p = false := h
    simp [early, waited, poll, hp, Nat.add_min_add_right]

theorem early_le : s.early done ≤ s.polls.length := (List.takeWhile_sublist _).length_le

theorem length_waited {limit : Nat} :
    (s.waited done limit).polls.length = s.polls.length - min limit (s.early done + 1) := List.length_drop

end BusScript

/-! ### MDIO -/

namespace PseudoPhy
variable {settings : Settings} {n : Nat} {s : BusScript (BitVec 16)}

/-- The word shows that no operation is under way. -/
def complete (word : BitVec 16) : Bool := word &&& operationMask == 0

/-- The words that a scripted bus holds for a value of the given width. -/
def scriptedWords (w : Width) (s : BusScript (BitVec 16)) : List (BitVec 16) :=
  (List.range (chunks w)).map fun i => s.data.getD i 0

theorem scripted_readData {i : Nat} (h : i < 4) (phy : UInt8) :
    MdioBus.scripted (.read phy (dataRegister i)) s = (.ok (s.data.getD i 0), s) := by
  have hindex : ∀ i : Fin 4, registerIndex? (dataRegister 0) 4 (dataRegister i) = some i.val := by decide
  simp only [MdioBus.scripted, if_neg (dataRegister_ne_address ⟨i, h⟩), hindex ⟨i, h⟩]

theorem runOn_completes_scripted (settings : Settings) (polls n : Nat) (s : BusScript (BitVec 16)) :
    runOn MdioBus.scripted (settings.completes polls) (n, s) =
      (.ok (decide (s.early complete < polls)), n, s.waited complete polls) := by
  induction polls generalizing s with
  | zero => rw [Settings.completes, runOn_pure, BusScript.waited_zero, decide_eq_false (Nat.not_lt_zero _)]
  | succ polls ih =>
    have hpoll : runOn MdioBus.scripted (readWord settings.phy addressRegister) (n, s) =
        (.ok (s.poll 0).1, n, (s.poll 0).2) := rfl
    rw [Settings.completes, runOn_bind_ok hpoll]
    by_cases hdone : (s.poll 0).1 &&& operationMask = 0
    · have hcomplete : complete (s.poll 0).1 = true := beq_iff_eq.mpr hdone
      obtain ⟨hearly, hwaited⟩ := BusScript.poll_done polls hcomplete
      rw [if_pos hdone, runOn_pure, hearly, hwaited, decide_eq_true (Nat.succ_pos polls)]
    · have hbusy : complete (s.poll 0).1 = false := beq_eq_false_iff_ne.mpr hdone
      obtain ⟨hearly, hwaited⟩ := BusScript.poll_early polls (by decide) hbusy
      rw [if_neg hdone, runOn_bind_ok (runOn_delay _ _ _ _), ih, hearly, hwaited,
        decide_eq_decide.mpr Nat.add_lt_add_iff_right]
      rfl

/-- Over a scripted bus an operation completes unless five polls show it under way. -/
theorem runOn_operate_scripted (settings : Settings) (location : Location) (operation : Operation) :
    runOn MdioBus.scripted (settings.operate location operation) (n, s) =
      (if s.early complete < 5 ∨ settings.strict = false then .ok () else .error (.mdioTimeout location),
        if s.early complete < 5 then n else n + 1, s.waited complete 5) := by
  have hissue : runOn MdioBus.scripted
      (writeWord settings.phy addressRegister (location.offset.toBitVec ++ operation.code)) (n, s) =
        (.ok (), n, s) := rfl
  rw [Settings.operate, runOn_bind_ok hissue, runOn_bind_ok (runOn_completes_scripted _ _ _ _), pollLimit]
  by_cases h : s.early complete < 5
  · simp only [h, decide_true, true_or, if_true]
    rfl
  · simp only [h, decide_false, false_or, if_false]
    cases settings.strict <;> rfl

theorem runOn_load_scripted (settings : Settings) (words : List (BitVec 16)) :
    runOn MdioBus.scripted (settings.load words) (n, s) = (.ok (), n, s) := by
  have hstep : ∀ (i : Nat) (p : BitVec 16 × Nat) u, words.zipIdx[i]? = some p → u = s →
      ∃ v, runOn MdioBus.scripted (writeWord settings.phy (dataRegister p.2) p.1) (n, u) = (.ok (), n, v) ∧
        v = s :=
    fun _ _ u _ hu => ⟨u, rfl, hu⟩
  obtain ⟨u, hu, rfl⟩ := runOn_forM hstep rfl
  exact hu

/-- Over a scripted bus every access is one wait. It fails if that is in vain and the settings are strict; else
    a write is taken and a read gives the data of the script. -/
theorem device_scripted (settings : Settings) (c : Registers.Call) (n : Nat) (s : BusScript (BitVec 16)) :
    settings.layer.device MdioBus.scripted c (n, s) =
      (match c with
        | .read a =>
          if s.early complete < 5 ∨ settings.strict = false
            then .ok (a.width.truncate (Word.ofLimbs (scriptedWords a.width s)))
          else .error (.mdioTimeout a.location)
        | .write a _ =>
          if s.early complete < 5 ∨ settings.strict = false then .ok () else .error (.mdioTimeout a.location),
        if s.early complete < 5 then n else n + 1, s.waited complete 5) := by
  have hselect : ∀ page, runOn MdioBus.scripted (settings.selectPage page) (n, s) = (.ok (), n, s) :=
    fun _ => rfl
  cases c with
  | read a =>
    have hcollect : ∀ m, runOn MdioBus.scripted (settings.collect (chunks a.width)) (m, s.waited complete 5) =
        (.ok (scriptedWords a.width s), m, s.waited complete 5) := fun m =>
      runOn_mapM fun i hi => by
        rw [runOn_readWord, scripted_readData (Nat.lt_of_lt_of_le (List.mem_range.mp hi) (chunks_le _))]
        rfl
    have hoperate := runOn_operate_scripted (n := n) (s := s) settings a.location .read
    rw [device_read_eq, Settings.read, runOn_bind_ok (hselect _)]
    by_cases hok : s.early complete < 5 ∨ settings.strict = false
    · rw [if_pos hok] at hoperate
      rw [runOn_bind_ok hoperate, runOn_bind_ok (hcollect _), runOn_pure]
      simp only [if_pos hok]
    · rw [if_neg hok] at hoperate
      rw [runOn_bind_error hoperate]
      simp only [if_neg hok]
  | write a value =>
    rw [device_write_eq, Settings.write, runOn_bind_ok (hselect _), runOn_bind_ok (runOn_load_scripted _ _),
      runOn_operate_scripted]

/-- Over any accesses, each operation that is counted has used up five polls, and the data stays. -/
theorem counted_scripted {α : Type} (settings : Settings) (p : Program Registers α) (n : Nat)
    (s : BusScript (BitVec 16)) :
    let e := (p.run (settings.layer.device MdioBus.scripted) (n, s)).2
    5 * e.1 + e.2.polls.length ≤ 5 * n + s.polls.length ∧ e.2.data = s.data := by
  refine Program.run_keeps (P := fun _ => True)
    (K := fun e : Nat × BusScript (BitVec 16) => 5 * e.1 + e.2.polls.length ≤ 5 * n + s.polls.length ∧
      e.2.data = s.data)
    ?_ p.calls_true ⟨Nat.le_refl _, rfl⟩
  rintro c ⟨m, u⟩ - ⟨hcount, hdata⟩
  have hend : (settings.layer.device MdioBus.scripted c (m, u)).2 =
      (if u.early complete < 5 then m else m + 1, u.waited complete 5) :=
    congrArg Prod.snd (device_scripted settings c m u)
  rw [hend]
  refine ⟨?_, hdata⟩
  have hcount : 5 * m + u.polls.length ≤ 5 * n + s.polls.length := hcount
  have hearly : u.early complete ≤ u.polls.length := BusScript.early_le
  rw [BusScript.length_waited]
  split <;> omega

/-- A soft read behind five polls that show an operation under way. -/
example :
    (Settings.layer {}).device MdioBus.scripted (.read ⟨⟨0, 0x0b⟩, .bits8⟩) (0, ⟨List.replicate 5 2, [0x42]⟩) =
    (.ok 0x42, 1, ⟨[], [0x42]⟩) := rfl

end PseudoPhy

/-! ### SPI -/

namespace SpiFrames
variable {s : BusScript UInt8}

/-- The status acknowledges a read. -/
def acknowledges (status : UInt8) : Bool := status &&& acknowledged != 0

theorem scripted_transfer (register : UInt8) (s : BusScript UInt8) :
    runOn SpiBus.scripted (readByte register) s =
      (.ok (SpiBus.scriptedByte register s).1, (SpiBus.scriptedByte register s).2) := rfl

theorem scriptedByte_data (register : UInt8) (s : BusScript UInt8) :
    (SpiBus.scriptedByte register s).2.data = s.data := by
  rw [SpiBus.scriptedByte]
  split
  · obtain ⟨_ | ⟨p, polls⟩, data⟩ := s <;> rfl
  · split <;> rfl

theorem runOn_await_scripted (location : Location) (polls : Nat) (s : BusScript UInt8) :
    runOn SpiBus.scripted (awaitAcknowledge location polls) s =
      (if s.early acknowledges < polls then .ok () else .error (.spiTimeout location),
        s.waited acknowledges polls) := by
  induction polls generalizing s with
  | zero =>
    rw [BusScript.waited_zero, if_neg (Nat.not_lt_zero _)]
    rfl
  | succ polls ih =>
    have hpoll : runOn SpiBus.scripted (readByte statusRegister) s =
        (.ok (s.poll acknowledged).1, (s.poll acknowledged).2) := rfl
    rw [awaitAcknowledge, runOn_bind_ok hpoll]
    by_cases hdone : (s.poll acknowledged).1 &&& acknowledged ≠ 0
    · have hack : acknowledges (s.poll acknowledged).1 = true := bne_iff_ne.mpr hdone
      obtain ⟨hearly, hwaited⟩ := BusScript.poll_done polls hack
      rw [if_pos hdone, runOn_pure, hearly, hwaited, if_pos (Nat.succ_pos polls)]
    · have hnone : acknowledges (s.poll acknowledged).1 = false :=
        bne_eq_false_iff_eq.mpr (Decidable.not_not.mp hdone)
      obtain ⟨hearly, hwaited⟩ := BusScript.poll_early polls (by decide) hnone
      have hdelay : ∀ u : BusScript UInt8, runOn SpiBus.scripted (delay pollDelay) u = (.ok (), u) :=
        fun _ => rfl
      rw [if_neg hdone, runOn_bind_ok (hdelay _), ih, hearly, hwaited]
      simp only [Nat.add_lt_add_iff_right]

/-- Over a scripted bus a read is given up if ten polls do not acknowledge it, and else gives the data of the
    script. Touching the status register in the first place takes a poll of its own. -/
theorem device_read_scripted (a : Address) (s : BusScript UInt8) :
    let touched := (SpiBus.scriptedByte a.location.offset s).2
    layer.device SpiBus.scripted (.read a) ((), s) =
      (if touched.early acknowledges < 10 then
          .ok (Word.ofLimbs ((List.range a.width.bytes).map fun i => (s.data.getD i 0).toBitVec))
        else .error (.spiTimeout a.location), (), touched.waited acknowledges 10) := by
  intro touched
  have hselect : runOn SpiBus.scripted (selectPage a.location.page) s = (.ok (), s) := rfl
  have hindex : ∀ i : Fin 8, registerIndex? (dataRegister 0) 8 (dataRegister i) = some i.val := by decide
  have hcollect : runOn SpiBus.scripted (collect a.width.bytes) (touched.waited acknowledges 10) =
      (.ok ((List.range a.width.bytes).reverse.map fun i => s.data.getD i 0), touched.waited acknowledges 10) :=
    runOn_mapM fun i hi => by
      have hi : i < 8 := Nat.lt_of_lt_of_le (List.mem_range.mp (List.mem_reverse.mp hi)) (bytes_le _)
      have hdata : (touched.waited acknowledges 10).data = s.data := scriptedByte_data _ s
      rw [scripted_transfer, SpiBus.scriptedByte, if_neg (dataRegister_ne_status hi), hindex ⟨i, hi⟩, hdata]
  have hawait := runOn_await_scripted a.location pollLimit touched
  rw [device_read_eq, read, runOn_bind_ok hselect, runOn_bind_ok (scripted_transfer _ _)]
  by_cases hok : touched.early acknowledges < 10
  · rw [pollLimit, if_pos hok] at hawait
    rw [if_pos hok, pollLimit, runOn_bind_ok hawait, runOn_bind_ok hcollect, runOn_pure, ← List.map_reverse,
      List.reverse_reverse, List.map_map]
    rfl
  · rw [pollLimit, if_neg hok] at hawait
    rw [if_neg hok, pollLimit, runOn_bind_error hawait]

theorem device_write_scripted (a : Address) (value : BitVec 64) (s : BusScript UInt8) :
    layer.device SpiBus.scripted (.write a value) ((), s) = (.ok (), (), s) := rfl

end SpiFrames

end EtherSwitch
