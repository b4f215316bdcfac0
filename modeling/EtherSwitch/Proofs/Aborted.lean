import EtherSwitch.Proofs.Engine

/-! Register accesses over MDIO that a failing bus call cuts off. An access that does not get as far as its
    operation leaves the words that it has loaded in the data registers (`Attempt.pending_run`). A later write
    loads no more data registers than its width takes, so that what was left in the others ends up above its
    value (`Attempt.write_after_history`). -/

namespace EtherSwitch

/-! ### Calls on a failing bus -/

namespace PseudoPhy
variable {α : Type} {settings : Settings} {n : Nat} {s : Faulty IoError Simulation}

theorem runOn_writeWord_passed (h : s.plan s.made = none) (phy register : UInt8) (word : BitVec 16) :
    runOn Simulation.mdio.faulty (writeWord phy register word) (n, s) =
      ((Simulation.mdio (.write phy register word) s.device).1.mapError .io, n,
        { s with made := s.made + 1, device := (Simulation.mdio (.write phy register word) s.device).2 }) := by
  rw [runOn_writeWord, faulty_of_passed rfl _ h]

theorem runOn_writeWord_refused {e : IoError} (h : s.plan s.made = some e) (phy register : UInt8)
    (word : BitVec 16) :
    runOn Simulation.mdio.faulty (writeWord phy register word) (n, s) =
      (.error (.io e), n, { s with made := s.made + 1 }) := by
  rw [runOn_writeWord, faulty_of_refused rfl _ h]
  rfl

/-- Selecting a page and loading words, as far as no call of it is refused. -/
theorem runOn_prepare (hphy : settings.phy = defaultPhy) {plan : FaultPlan IoError} (page : UInt8)
    {words : List (BitVec 16)}
    (hlen : words.length ≤ 4) (hplan : ∀ i ≤ words.length, plan i = none) (n : Nat) (s : Simulation) :
    ∃ u, runOn Simulation.mdio.faulty (do settings.selectPage page; settings.load words) (n, .start plan s) =
      (.ok (), n, u) ∧
      u.plan = plan ∧ u.made = words.length + 1 ∧ u.device.mdioPort.page = page ∧
      u.device.mdioPort.pending = words ++ s.mdioPort.pending.drop words.length := by
  have hpage :=
    runOn_writeWord_passed (n := n) (s := .start plan s) (hplan 0 (Nat.zero_le _)) settings.phy pageRegister
    (page.toBitVec ++ (1 : BitVec 8))
  rw [hphy, show (Faulty.start plan s).device = s from rfl, mdio_selectPage, ← hphy] at hpage
  have hstep : ∀ i word (u : Faulty IoError Simulation), i < words.length → u.plan = plan ∧ u.made = i + 1 →
      ∃ v, Simulation.mdio.faulty (.write defaultPhy (dataRegister i) word) u = (.ok (), v) ∧
        v.device = (Simulation.mdio (.write defaultPhy (dataRegister i) word) u.device).2 ∧ v.plan = plan ∧
          v.made = i + 1 + 1 := by
    rintro i word u hi ⟨rfl, hmade⟩
    have hpassed : u.plan u.made = none := hmade ▸ hplan (i + 1) hi
    refine ⟨{ u with
      made := u.made + 1
      device := (Simulation.mdio (.write defaultPhy (dataRegister i) word) u.device).2 }, ?_, rfl, rfl,
        by rw [hmade]⟩
    rw [faulty_of_passed rfl _ hpassed, mdio_load (by omega)]
  obtain ⟨u, hu, ⟨hplan', hmade⟩, hpending, hpage', -⟩ := runOn_load (n := n) hphy Faulty.device hlen hstep
    (s := { Faulty.start plan s with made := 1, device := { s with mdioPort := { s.mdioPort with page } } }) ⟨rfl, rfl⟩
  exact ⟨u, (runOn_bind_ok hpage).trans hu, hplan', hmade, hpage', hpending⟩

/-- Once an operation is issued, nothing is pending any more, whatever happens to the calls that follow. -/
theorem pending_of_issued (hphy : settings.phy = defaultPhy) {plan : FaultPlan IoError}
    {words : List (BitVec 16)}
    (hlen : words.length ≤ 4) (hplan : ∀ i ≤ words.length + 1, plan i = none) (op : Operation) (l : Location)
    {rest : Transaction α}
    (hrest : Uses (fun c => ∀ u, (Simulation.mdio c u).2.mdioPort.pending = u.mdioPort.pending) rest) (n : Nat)
    (s : Simulation) :
    (runOn Simulation.mdio.faulty (do
      settings.selectPage l.page
      settings.load words
      writeWord settings.phy addressRegister (l.offset.toBitVec ++ op.code)
      rest) (n, .start plan s)).2.2.device.mdioPort.pending = List.replicate 4 0 := by
  obtain ⟨u, hu, hplan', hmade, hpage, -⟩ :=
    runOn_prepare hphy l.page hlen (fun i hi => hplan i (Nat.le_succ_of_le hi)) n s
  have hpassed : u.plan u.made = none := by rw [hplan', hmade, hplan _ (Nat.le_refl _)]
  have hissue :=
    runOn_writeWord_passed (n := n) hpassed settings.phy addressRegister (l.offset.toBitVec ++ op.code)
  rw [hphy, mdio_issue op hpage, ← hphy] at hissue
  rw [← bind_assoc, runOn_bind_ok hu, runOn_bind_ok hissue]
  refine Program.run_keeps (d := Simulation.mdio.faulty)
    (K := fun u : Faulty IoError Simulation => u.device.mdioPort.pending = List.replicate 4 0)
    (fun c u hc hu => Program.faulty_keeps (K := fun u : Simulation => u.mdioPort.pending = List.replicate 4 0)
      (fun u hu => (hc u).trans hu) hu) (hrest.calls n) ?_
  have hsettled : ∀ v : Simulation, v.mdioPort.chunks = op.chunks l u.device → v.mdioPort.Settled :=
    fun _ => Operation.settled
  exact (hsettled _ rfl).pending

theorem polls_pending (settings : Settings) :
    settings.Polls fun c => ∀ u, (Simulation.mdio c u).2.mdioPort.pending = u.mdioPort.pending where
  read register u := by
    have hread : (u.mdioPort.read register).2.pending = u.mdioPort.pending := by
      unfold MdioPort.read
      split
      · rfl
      · split
        · rfl
        · split <;> rfl
    rw [Simulation.mdio]
    split
    · exact hread
    · rfl
  delay _ _ := rfl

/-- A refused call leaves pending what was loaded before it. -/
theorem pending_of_refused (hphy : settings.phy = defaultPhy) {plan : FaultPlan IoError} (page : UInt8)
    {words : List (BitVec 16)} (hlen : words.length ≤ 4) (hplan : ∀ i ≤ words.length, plan i = none)
    {e : IoError} (hrefused : plan (words.length + 1) = some e) (register : UInt8) (word : BitVec 16)
    (f : Unit → Transaction α) (n : Nat) (s : Simulation) :
    (runOn Simulation.mdio.faulty
      (do settings.selectPage page; settings.load words; writeWord settings.phy register word >>= f)
      (n, .start plan s)).2.2.device.mdioPort.pending = words ++ s.mdioPort.pending.drop words.length := by
  obtain ⟨u, hu, hplan', hmade, -, hpending⟩ := runOn_prepare hphy page hlen hplan n s
  have hcall : u.plan u.made = some e := by rw [hplan', hmade, hrefused]
  rw [← bind_assoc, runOn_bind_ok hu, runOn_bind_error (runOn_writeWord_refused hcall _ _ _)]
  exact hpending

theorem load_split (settings : Settings) {words : List (BitVec 16)} {j : Nat} (h : j < words.length) :
    ∃ rest : Transaction Unit, settings.load words =
      (do settings.load (words.take j); writeWord settings.phy (dataRegister j) words[j]; rest) := by
  have hwords : words.zipIdx = (words.take j).zipIdx ++
      (words[j], j) :: (words.drop (j + 1)).zipIdx (j + 1) := by
    have hsplit : words = words.take j ++ words[j] :: words.drop (j + 1) := by
      rw [List.getElem_cons_drop, List.take_append_drop]
    have hzip := congrArg List.zipIdx hsplit
    rwa [List.zipIdx_append, List.length_take_of_le (Nat.le_of_lt h), Nat.zero_add, List.zipIdx_cons] at hzip
  refine ⟨((words.drop (j + 1)).zipIdx (j + 1)).forM fun p => writeWord settings.phy (dataRegister p.2) p.1, ?_⟩
  rw [Settings.load, hwords]
  exact List.forM_append.trans (bind_congr fun _ => List.forM_cons)

end PseudoPhy

/-! ### Attempts -/

/-- A register access over MDIO, and which of its bus calls is refused, if one is. -/
structure Attempt where
  call : Registers.Call
  failing : Option (Nat × IoError)

namespace Attempt

def plan (a : Attempt) : FaultPlan IoError := fun i =>
  match a.failing with
  | some (n, e) => if i = n then some e else none
  | none => none

/-- The words that the access loads into the data registers. -/
def words (a : Attempt) : List (BitVec 16) :=
  match a.call with
  | .read _ => []
  | .write address value => Word.limbs 16 (PseudoPhy.chunks address.width) (address.width.truncate value)

/-- What is pending after the access, given what was before. Its first bus call selects the page, then each word
    is loaded, and the next call issues the operation, which takes all that is pending. -/
def leave (a : Attempt) (pending : List (BitVec 16)) : List (BitVec 16) :=
  match a.failing with
  | some (n, _) =>
    if n ≤ a.words.length + 1 then a.words.take (n - 1) ++ pending.drop (n - 1) else List.replicate 4 0
  | none => List.replicate 4 0

/-- Makes the access on the simulated chip. -/
def run (settings : PseudoPhy.Settings) (a : Attempt) (s : Nat × Simulation) :
    Registers.Answer a.call × Nat × Simulation :=
  match settings.layer.device Simulation.mdio.faulty a.call (s.1, .start a.plan s.2) with
  | (answer, n, u) => (answer, n, u.device)

/-- The chip after some accesses, one after the other. -/
def history (settings : PseudoPhy.Settings) (attempts : List Attempt) (s : Nat × Simulation) :
    Nat × Simulation :=
  attempts.foldl (fun s a => (a.run settings s).2) s

/-- What is pending after some accesses on a chip on which nothing was. -/
def leftover (attempts : List Attempt) : List (BitVec 16) :=
  attempts.foldl (fun pending a => a.leave pending) (List.replicate 4 0)

section
open PseudoPhy
variable {α : Type} {settings : Settings}

theorem length_words_le (a : Attempt) : a.words.length ≤ 4 := by
  unfold words
  split
  · exact Nat.zero_le 4
  · rw [Word.length_limbs]
    exact chunks_le _

/-- What is pending after an access whose operation is issued by call number `a.words.length + 1`. -/
theorem pending_access (hphy : settings.phy = defaultPhy) (a : Attempt) (op : Operation) (l : Location)
    {rest : Transaction α}
    (hrest : Uses (fun c => ∀ u, (Simulation.mdio c u).2.mdioPort.pending = u.mdioPort.pending) rest) (n : Nat)
    (s : Simulation) :
    (runOn Simulation.mdio.faulty (do
      settings.selectPage l.page
      settings.load a.words
      writeWord settings.phy addressRegister (l.offset.toBitVec ++ op.code)
      rest) (n, .start a.plan s)).2.2.device.mdioPort.pending = a.leave s.mdioPort.pending := by
  have hlen := a.length_words_le
  unfold leave
  cases hfailing : a.failing with
  | none => exact pending_of_issued hphy hlen (fun i _ => by rw [plan, hfailing]) op l hrest n s
  | some failing =>
    obtain ⟨k, e⟩ := failing
    have hrefused : a.plan k = some e := by rw [plan, hfailing]; exact if_pos rfl
    have hpassed : ∀ i, i ≠ k → a.plan i = none := fun i hi => by rw [plan, hfailing]; exact if_neg hi
    show _ = if k ≤ a.words.length + 1 then _ else _
    split
    case isFalse hlate => exact pending_of_issued hphy hlen (fun i hi => hpassed i (by omega)) op l hrest n s
    case isTrue hearly =>
      cases k with
      | zero =>
        rw [Settings.selectPage, runOn_bind_error (runOn_writeWord_refused hrefused _ _ _)]
        rfl
      | succ j =>
        rw [Nat.add_sub_cancel]
        rcases Nat.lt_or_eq_of_le (Nat.le_of_succ_le_succ hearly) with hj | rfl
        · have htake : (a.words.take j).length = j := List.length_take_of_le (Nat.le_of_lt hj)
          obtain ⟨more, hload⟩ := load_split settings hj
          have hbefore : ∀ i ≤ (a.words.take j).length, a.plan i = none := fun i hi => hpassed i (by omega)
          have hnext : a.plan ((a.words.take j).length + 1) = some e := htake.symm ▸ hrefused
          have hcut := pending_of_refused hphy l.page (by omega) hbefore hnext (dataRegister j) a.words[j]
            (fun _ => do more; writeWord settings.phy addressRegister (l.offset.toBitVec ++ op.code); rest) n s
          rw [htake] at hcut
          rw [hload, bind_assoc, bind_assoc]
          exact hcut
        · rw [List.take_length]
          exact pending_of_refused hphy l.page hlen (fun i hi => hpassed i (by omega)) hrefused _ _ _ n s

/-- What is pending after an access depends on what was before and on which of its bus calls fails, alone. -/
theorem pending_run (hphy : settings.phy = defaultPhy) (a : Attempt) (s : Nat × Simulation) :
    (a.run settings s).2.2.mdioPort.pending = a.leave s.2.mdioPort.pending := by
  obtain ⟨n, s⟩ := s
  obtain ⟨call, failing⟩ := a
  cases call with
  | read address =>
    -- A read is an access that loads nothing.
    have hread : settings.read address = (do
        settings.selectPage address.location.page
        settings.load []
        writeWord settings.phy addressRegister (address.location.offset.toBitVec ++ Operation.read.code)
        settings.wait address.location
        let words ← settings.collect (chunks address.width)
        return address.width.truncate (Word.ofLimbs words)) := by
      rw [Settings.read, operate_eq]
      refine bind_congr fun _ => ?_
      rw [bind_assoc, show settings.load [] = pure () from rfl, pure_bind]
    have hrest := (uses_wait ((polls_pending settings).read _) ((polls_pending settings).delay _)
      address.location).bind fun _ =>
        (uses_collect (polls_pending settings) (chunks address.width)).bind fun words =>
          uses_pure (address.width.truncate (Word.ofLimbs words))
    have hrun : (run settings ⟨.read address, failing⟩ (n, s)).2.2.mdioPort.pending =
        (runOn Simulation.mdio.faulty (settings.read address)
          (n, .start (plan ⟨.read address, failing⟩) s)).2.2.device.mdioPort.pending := rfl
    rw [hrun, hread]
    exact pending_access hphy ⟨.read address, failing⟩ .read address.location hrest n s
  | write address value =>
    exact pending_access hphy ⟨.write address value, failing⟩ .write address.location
      (uses_wait ((polls_pending settings).read _) ((polls_pending settings).delay _) address.location) n s

theorem pending_history (hphy : settings.phy = defaultPhy) (attempts : List Attempt) {s : Nat × Simulation}
    (hs : s.2.mdioPort.Settled) : (history settings attempts s).2.mdioPort.pending = leftover attempts := by
  have hfold : ∀ (attempts : List Attempt) (s : Nat × Simulation),
      (history settings attempts s).2.mdioPort.pending =
      attempts.foldl (fun pending a => a.leave pending) s.2.mdioPort.pending := by
    intro attempts
    induction attempts with
    | nil => exact fun _ => rfl
    | cons a attempts ih =>
      intro s
      rw [List.foldl_cons, ← pending_run hphy a s]
      exact ih _
  rw [hfold, hs.pending]
  rfl

/-- What no access changes. -/
theorem history_keeps (settings : Settings) (attempts : List Attempt) (s : Nat × Simulation) :
    (history settings attempts s).2.faults = s.2.faults ∧
      (history settings attempts s).2.store.chip = s.2.store.chip ∧
      (history settings attempts s).2.store.forwardStuck = s.2.store.forwardStuck := by
  let K (u : Simulation) : Prop :=
    u.faults = s.2.faults ∧ u.store.chip = s.2.store.chip ∧ u.store.forwardStuck = s.2.store.forwardStuck
  have hcall : ∀ c u, K u → K (Simulation.mdio c u).2 := by
    rintro c u ⟨hfaults, hchip, hstuck⟩
    refine ⟨(u.mdio_faults c).trans hfaults, ?_⟩
    rcases u.mdio_store_cases c with h | ⟨l, h | ⟨value, h⟩⟩
    · rw [h]
      exact ⟨hchip, hstuck⟩
    · rw [h, Store.read]
      split <;> exact ⟨hchip, hstuck⟩
    · rw [h, Store.chip_write, Store.forwardStuck_write]
      exact ⟨hchip, hstuck⟩
  have hrun : ∀ (a : Attempt) u, K u.2 → K (a.run settings u).2.2 := fun a u hu =>
    Program.device_keeps (l := settings.layer) (d := Simulation.mdio.faulty) (P := fun _ => True)
      (K := fun v : Faulty IoError Simulation => K v.device)
      (fun c v _ hv => Program.faulty_keeps (K := K) (fun w hw => hcall c w hw) hv) a.call u.1
        (Program.calls_true _) hu
  have hfold : ∀ (attempts : List Attempt) u, K u.2 → K (history settings attempts u).2 := by
    intro attempts
    induction attempts with
    | nil => exact fun _ hu => hu
    | cons a attempts ih => exact fun u hu => ih _ (hrun a u hu)
  exact hfold attempts s ⟨rfl, rfl, rfl⟩

/-- A write that succeeds went as on a bus without failures. -/
theorem store_of_ok (hphy : settings.phy = defaultPhy) {address : Address} {value : BitVec 64}
    {failing : Option (Nat × IoError)} {s t : Nat × Simulation}
    (h : run settings ⟨.write address value, failing⟩ s = (.ok (), t)) :
    t.2.store = s.2.store.write address.location (Word.ofLimbs (Word.limbs 16 (chunks address.width)
      (address.width.truncate value) ++ s.2.mdioPort.pending.drop (chunks address.width))) := by
  obtain ⟨m, u, hu, hstore, -⟩ := device_write_pending hphy address value s.1 s.2
  rcases Program.run_faulty_of_prompt Simulation.mdio (prompt_layer settings (.write address value) s.1)
    (.start (Attempt.plan ⟨.write address value, failing⟩) s.2)
      with ⟨-, hsame⟩ | ⟨err, ⟨refuse, hrefuse, hanswer⟩, -⟩
  · have hend : (run settings ⟨.write address value, failing⟩ s).2.2 = t.2 := congrArg (fun r => r.2.2) h
    rw [← hstore, ← hend]
    exact congrArg Simulation.store (hsame.trans (congrArg (fun r => r.2.2) hu))
  · obtain rfl := Option.some.inj hrefuse
    cases (congrArg Prod.fst h).symm.trans hanswer

/-- A write that succeeds after any accesses, of each of which a bus call may have failed, leaves in its
    register its value and, above as many words as its width takes, what is pending of the accesses before. Up
    to its width, the register holds the value; all of it does if nothing is pending there. -/
theorem write_after_history (hphy : settings.phy = defaultPhy) {s t : Nat × Simulation} (hs : s.2.Reachable)
    (hfree : s.2.FaultFree) (attempts : List Attempt) {address : Address} {value : BitVec 64}
    {failing : Option (Nat × IoError)}
    (hplain : ∀ chip, s.2.store.chip = some chip → address.location ≠ chip.tableCommand)
    (hok : run settings ⟨.write address value, failing⟩ (history settings attempts s) = (.ok (), t)) :
    t.2.store.registers address.location = (address.width.truncate value |||
        Word.ofLimbs ((leftover attempts).drop (chunks address.width)) <<< (16 * chunks address.width)) ∧
      address.width.truncate (t.2.store.registers address.location) = address.width.truncate value ∧
      ((∀ word ∈ (leftover attempts).drop (chunks address.width), word = 0) →
        t.2.store.registers address.location = address.width.truncate value) := by
  obtain ⟨-, hchip, hstuck⟩ := history_keeps settings attempts s
  have hstore := store_of_ok hphy hok
  rw [pending_history hphy attempts hs.settled] at hstore
  have hregister : t.2.store.registers address.location = Word.ofLimbs (Word.limbs 16 (chunks address.width)
      (address.width.truncate value) ++ (leftover attempts).drop (chunks address.width)) := by
    rw [hstore]
    exact Store.registers_write_self (hchip ▸ hplain) (hstuck.trans hfree.forwards)
  refine ⟨?_, ?_, fun hzero => ?_⟩
  · rw [hregister, Word.ofLimbs_append, ofLimbs_limbs_truncate, Word.length_limbs]
  · rw [hregister, Word.ofLimbs_append, ofLimbs_limbs_truncate, Word.length_limbs,
      Width.truncate_or_shiftLeft _ (bits_le_chunks _), Width.truncate_truncate]
  · rw [hregister, Word.ofLimbs_append_zeros hzero, ofLimbs_limbs_truncate]

/-- Three words of a write of four, and a read that does not even select its page. -/
def interrupted : List Attempt :=
  [⟨.write ⟨⟨16, 1⟩, .bits64⟩ 0x1111222233334444, some (4, .injected)⟩,
    ⟨.read ⟨⟨16, 3⟩, .bits16⟩, some (0, .injected)⟩]

theorem plain_bcm5395 : ∀ chip, (Simulation.new (.ofChip .bcm5395)).store.chip = some chip →
    (⟨16, 2⟩ : Location) ≠ chip.tableCommand := by
  rintro chip hchip
  obtain rfl : Chip.bcm5395 = chip := Option.some.inj hchip
  decide

theorem write_after_interrupted :
    ∃ t, run {} ⟨.write ⟨⟨16, 2⟩, .bits32⟩ 0xcafef00d, some (9, .injected)⟩
        (history {} interrupted (0, .new (.ofChip .bcm5395))) = (.ok (), t) ∧
      t.2.store.registers ⟨16, 2⟩ = 0x2222cafef00d ∧
      Width.bits32.truncate (t.2.store.registers ⟨16, 2⟩) = Width.bits32.truncate 0xcafef00d := by
  have hphy : ({} : Settings).phy = defaultPhy := rfl
  have hok : run {} ⟨.write ⟨⟨16, 2⟩, .bits32⟩ 0xcafef00d, some (9, .injected)⟩
      (history {} interrupted (0, .new (.ofChip .bcm5395))) =
        (.ok (), (run {} ⟨.write ⟨⟨16, 2⟩, .bits32⟩ 0xcafef00d,
        some (9, .injected)⟩ (history {} interrupted (0, .new (.ofChip .bcm5395)))).2) := rfl
  obtain ⟨hregister, hlow, -⟩ :=
    write_after_history hphy (Simulation.reachable_new (.ofChip .bcm5395)) ⟨rfl, rfl, rfl⟩
    interrupted plain_bcm5395 hok
  exact ⟨_, hok, hregister.trans (by decide), hlow⟩

/-- A write of 16 bits after one of 32 that failed when its operation was to be issued: the upper word of the
    first ends up above the value of the second. -/
theorem write_after_cutOff :
    ({} : Settings).phy = defaultPhy ∧ (Simulation.new (.ofChip .bcm5395)).Reachable ∧
      (Simulation.new (.ofChip .bcm5395)).FaultFree ∧
      (∀ chip, (Simulation.new (.ofChip .bcm5395)).store.chip = some chip →
        (⟨16, 2⟩ : Location) ≠ chip.tableCommand) ∧
      (run {} ⟨.write ⟨⟨16, 2⟩, .bits16⟩ 0x1234, none⟩ (history {}
        [⟨.write ⟨⟨16, 1⟩, .bits32⟩ 0xaaaabbbb, some (3, .injected)⟩]
        (0, .new (.ofChip .bcm5395)))).1 = .ok () ∧
      (run {} ⟨.write ⟨⟨16, 2⟩, .bits16⟩ 0x1234, none⟩ (history {}
        [⟨.write ⟨⟨16, 1⟩, .bits32⟩ 0xaaaabbbb, some (3, .injected)⟩]
          (0, .new (.ofChip .bcm5395)))).2.2.store.registers ⟨16, 2⟩ = 0xaaaa1234 ∧
      Width.bits16.truncate 0x1234 ≠ 0xaaaa1234 :=
  ⟨rfl, Simulation.reachable_new _, ⟨rfl, rfl, rfl⟩, plain_bcm5395, rfl, rfl, by decide⟩

end

end Attempt

end EtherSwitch
