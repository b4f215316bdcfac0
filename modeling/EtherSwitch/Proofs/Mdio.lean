import EtherSwitch.Proofs.Calls
import EtherSwitch.Simulation

/-! Register accesses over MDIO on the simulated chip. An access leaves no data register loaded, whatever
    it found; if none was loaded before, it does to the store what its call says (`device_read`,
    `device_write`). -/

namespace EtherSwitch

/-! ### Limbs -/

theorem Word.ofLimbs_append {w : Nat} (digits more : List (BitVec w)) :
    Word.ofLimbs (digits ++ more) = Word.ofLimbs digits ||| Word.ofLimbs more <<< (w * digits.length) := by
  induction digits with
  | nil => simp
  | cons d digits ih =>
    rw [List.cons_append, ofLimbs_cons, ofLimbs_cons, ih, BitVec.shiftLeft_or_distrib, ← BitVec.shiftLeft_add,
      List.length_cons, Nat.mul_succ, BitVec.or_assoc, BitVec.or_assoc,
        BitVec.or_comm (_ <<< _) (d.setWidth 64)]

theorem Word.ofLimbs_zeros {w : Nat} {zeros : List (BitVec w)} (h : ∀ z ∈ zeros, z = 0) :
    ofLimbs zeros = 0 := by
  induction zeros with
  | nil => rfl
  | cons z zeros ih =>
    rw [ofLimbs_cons, ih fun y hy => h y (List.mem_cons_of_mem z hy), h z List.mem_cons_self]
    simp

theorem Word.ofLimbs_append_zeros {w : Nat} {digits zeros : List (BitVec w)} (h : ∀ z ∈ zeros, z = 0) :
    ofLimbs (digits ++ zeros) = ofLimbs digits := by
  simp [ofLimbs_append, ofLimbs_zeros h]

theorem Width.truncate_or_shiftLeft (w : Width) {k : Nat} (h : w.bits ≤ k) (x y : BitVec 64) :
    w.truncate (x ||| y <<< k) = w.truncate x := by
  apply BitVec.eq_of_getLsbD_eq
  intro i _
  rw [getLsbD_truncate, getLsbD_truncate, BitVec.getLsbD_or, BitVec.getLsbD_shiftLeft]
  by_cases hi : i < w.bits
  · simp [hi, show i < k by omega]
  · simp [hi]

/-! ### Data registers -/

/-- The words that the next write takes from the data registers if it loads none of them. -/
def MdioPort.pending (p : MdioPort) : List (BitVec 16) :=
  p.chunks.toList.map fun c => if c.loaded then c.word else 0

theorem MdioPort.length_pending (p : MdioPort) : p.pending.length = 4 := by
  rw [pending, List.length_map, Vector.length_toList]

theorem MdioPort.pending_load (p : MdioPort) {i : Nat} (h : i < 4) (word : BitVec 16) :
    MdioPort.pending { p with chunks := p.chunks.set i ⟨word, true⟩ } = p.pending.set i word := by
  rw [pending, Vector.toList_set, List.map_set]
  rfl

/-- Words put into a list place by place are in front of what the list held behind them. -/
theorem set_take_drop {α : Type} {xs ys : List α} {x : α} {i : Nat} (h : xs[i]? = some x)
    (hlen : i < ys.length) :
    (xs.take i ++ ys.drop i).set i x = xs.take (i + 1) ++ ys.drop (i + 1) := by
  obtain ⟨hlt, rfl⟩ := List.getElem?_eq_some_iff.mp h
  have htake : (xs.take i).length = i := List.length_take_of_le (Nat.le_of_lt hlt)
  rw [List.set_append_right _ _ (Nat.le_of_eq htake), htake, Nat.sub_self,
    List.drop_eq_getElem_cons hlen, List.set_cons_zero, List.take_succ_eq_append_getElem hlt, List.append_assoc]
  rfl

namespace PseudoPhy
variable {α β σ : Type}

theorem bits_le_chunks (w : Width) : w.bits ≤ 16 * chunks w := by cases w <;> decide

theorem chunks_le (w : Width) : chunks w ≤ 4 := by cases w <;> decide

theorem truncate_ofLimbs_limbs (w : Width) (value : BitVec 64) :
    w.truncate (Word.ofLimbs (Word.limbs 16 (chunks w) value)) = w.truncate value := by
  apply BitVec.eq_of_getLsbD_eq
  intro i _
  have := bits_le_chunks w
  rw [Width.getLsbD_truncate, Width.getLsbD_truncate, Word.getLsbD_ofLimbs_limbs]
  by_cases hi : i < w.bits
  · simp [hi, show i < 16 * chunks w by omega]
  · simp [hi]

/-- What is sent along above the words of a value does not reach its width. -/
theorem truncate_ofLimbs_append (w : Width) (value : BitVec 64) (more : List (BitVec 16)) :
    w.truncate (Word.ofLimbs (Word.limbs 16 (chunks w) (w.truncate value) ++ more)) = w.truncate value := by
  rw [Word.ofLimbs_append, Word.length_limbs, Width.truncate_or_shiftLeft w (bits_le_chunks w),
    truncate_ofLimbs_limbs, Width.truncate_truncate]

theorem ofLimbs_limbs_truncate (w : Width) (value : BitVec 64) :
    Word.ofLimbs (Word.limbs 16 (chunks w) (w.truncate value)) = w.truncate value := by
  apply BitVec.eq_of_getLsbD_eq
  intro i _
  have := bits_le_chunks w
  rw [Word.getLsbD_ofLimbs_limbs, Width.getLsbD_truncate]
  by_cases hi : i < w.bits
  · simp [hi, show i < 16 * chunks w by omega]
  · simp [hi]

/-! ### Running transactions -/

/-- Runs a transaction on a bus; the number counts the operations that did not complete. -/
def runOn (d : Device MdioBus σ) (t : Transaction α) (s : Nat × σ) : Except Error α × Nat × σ :=
  match Program.run d (t.run.run s.1) s.2 with
  | ((answer, n), s') => (answer, n, s')

section
variable (d : Device MdioBus σ) (n : Nat) (s : σ)

theorem device_read_eq (settings : Settings) (a : Address) :
    settings.layer.device d (.read a) (n, s) = runOn d (settings.read a) (n, s) := rfl

theorem device_write_eq (settings : Settings) (a : Address) (value : BitVec 64) :
    settings.layer.device d (.write a value) (n, s) = runOn d (settings.write a value) (n, s) := rfl

theorem runOn_pure (a : α) : runOn d (pure a) (n, s) = (.ok a, n, s) := rfl

theorem runOn_bind (t : Transaction α) (f : α → Transaction β) :
    runOn d (t >>= f) (n, s) =
      match runOn d t (n, s) with
      | (.ok a, s') => runOn d (f a) s'
      | (.error e, s') => (.error e, s') := by
  have h : Program.run d ((t >>= f).run.run n) s =
      Program.run d
        ((ExceptT.bindCont f (Program.run d (t.run.run n) s).1.1).run (Program.run d (t.run.run n) s).1.2)
        (Program.run d (t.run.run n) s).2 := by
    show Program.run d (t.run.run n >>= fun p => (ExceptT.bindCont f p.1).run p.2) s = _
    rw [Program.run_bind]
  simp only [runOn, h]
  rcases Program.run d (t.run.run n) s with ⟨⟨_ | a, n'⟩, s'⟩ <;> rfl

theorem runOn_readWord (phy register : UInt8) :
    runOn d (readWord phy register) (n, s) =
      ((d (.read phy register) s).1.mapError .io, n, (d (.read phy register) s).2) := rfl

theorem runOn_writeWord (phy register : UInt8) (word : BitVec 16) :
    runOn d (writeWord phy register word) (n, s) =
      ((d (.write phy register word) s).1.mapError .io, n, (d (.write phy register word) s).2) := rfl

theorem runOn_delay (micros : Nat) : runOn d (delay micros) (n, s) = (.ok (), n, (d (.delay micros) s).2) := rfl

end

section
variable {d : Device MdioBus σ} {n m : Nat} {s u : σ}

theorem runOn_bind_ok {t : Transaction α} {f : α → Transaction β} {a : α}
    (h : runOn d t (n, s) = (.ok a, m, u)) :
    runOn d (t >>= f) (n, s) = runOn d (f a) (m, u) := by
  rw [runOn_bind, h]

theorem runOn_bind_error {t : Transaction α} {f : α → Transaction β} {e : Error}
    (h : runOn d t (n, s) = (.error e, m, u)) : runOn d (t >>= f) (n, s) = (.error e, m, u) := by
  rw [runOn_bind, h]

end

theorem runOn_mapM {d : Device MdioBus σ} {n : Nat} {s : σ} {xs : List α} {f : α → Transaction β} {g : α → β}
    (h : ∀ x ∈ xs, runOn d (f x) (n, s) = (.ok (g x), n, s)) :
    runOn d (xs.mapM f) (n, s) = (.ok (xs.map g), n, s) := by
  induction xs with
  | nil => rw [List.mapM_nil, runOn_pure, List.map_nil]
  | cons x xs ih =>
    rw [List.mapM_cons, runOn_bind_ok (h x List.mem_cons_self),
      runOn_bind_ok (ih fun y hy => h y (List.mem_cons_of_mem x hy)), runOn_pure, List.map_cons]

/-- A loop whose `i`th step takes `K i` to `K (i + 1)`. -/
theorem runOn_forM {d : Device MdioBus σ} {n : Nat} {s : σ} {xs : List α} {f : α → Transaction PUnit}
    {K : Nat → σ → Prop}
    (h : ∀ i x u, xs[i]? = some x → K i u → ∃ v, runOn d (f x) (n, u) = (.ok (), n, v) ∧ K (i + 1) v)
    (hs : K 0 s) :
    ∃ u, runOn d (xs.forM f) (n, s) = (.ok (), n, u) ∧ K xs.length u := by
  induction xs generalizing K s with
  | nil => exact ⟨s, rfl, hs⟩
  | cons x xs ih =>
    obtain ⟨v, hv, hk⟩ := h 0 x s rfl hs
    obtain ⟨u, hu, hend⟩ := ih (K := fun i => K (i + 1)) (fun i y w hy => h (i + 1) y w hy) hk
    refine ⟨u, ?_, hend⟩
    rw [List.forM_eq_forM, List.forM_cons, runOn_bind_ok hv]
    exact hu

/-! ### The chip's answers -/

theorem dataRegister_ne_page (i : Fin 4) : dataRegister i ≠ pageRegister := by revert i; decide

theorem dataRegister_ne_address (i : Fin 4) : dataRegister i ≠ addressRegister := by revert i; decide

theorem chunkIndex?_dataRegister {i : Nat} (h : i < 4) :
    MdioPort.chunkIndex? (dataRegister i) = some ⟨i, h⟩ := by
  have hall : ∀ i : Fin 4, MdioPort.chunkIndex? (dataRegister i) = some i := by decide
  exact hall ⟨i, h⟩

theorem high_append (x : UInt8) (b : BitVec 8) :
    UInt8.ofBitVec (@BitVec.extractLsb' 16 8 8 (x.toBitVec ++ b)) = x :=
  congrArg UInt8.ofBitVec BitVec.extractLsb'_append_eq_left

theorem mdio_selectPage (page : UInt8) (s : Simulation) :
    Simulation.mdio (.write defaultPhy pageRegister (page.toBitVec ++ (1 : BitVec 8))) s =
      (.ok (), { s with mdioPort := { s.mdioPort with page } }) := by
  simp [Simulation.mdio, MdioPort.write, high_append]

theorem mdio_load {i : Nat} (h : i < 4) (word : BitVec 16) (s : Simulation) :
    Simulation.mdio (.write defaultPhy (dataRegister i) word) s =
      (.ok (), { s with mdioPort := { s.mdioPort with chunks := s.mdioPort.chunks.set i ⟨word, true⟩ } }) := by
  simp [Simulation.mdio, MdioPort.write, dataRegister_ne_page ⟨i, h⟩, dataRegister_ne_address ⟨i, h⟩,
    chunkIndex?_dataRegister h]

theorem mdio_readData {i : Nat} (h : i < 4) (s : Simulation) :
    Simulation.mdio (.read defaultPhy (dataRegister i)) s = (.ok (s.mdioPort.chunks[i].word), s) := by
  simp [Simulation.mdio, MdioPort.read, dataRegister_ne_page ⟨i, h⟩, dataRegister_ne_address ⟨i, h⟩,
    chunkIndex?_dataRegister h]

theorem mdio_poll (s : Simulation) :
    Simulation.mdio (.read defaultPhy addressRegister) s =
      (.ok (s.mdioPort.echo ||| s.mdioPort.busy),
        { s with mdioPort := { s.mdioPort with polls := s.mdioPort.polls + 1 } }) := by
  simp [Simulation.mdio, MdioPort.read, addressRegister, pageRegister]

/-- What an operation makes of the store. -/
def Operation.store (op : Operation) (l : Location) (s : Simulation) : Store :=
  match op with
  | read => (s.store.read l).2
  | write => s.store.write l s.mdioPort.loadedValue

/-- What an operation makes of the data registers. -/
def Operation.chunks (op : Operation) (l : Location) (s : Simulation) : Vector MdioPort.Chunk 4 :=
  match op with
  | read => MdioPort.shown (s.store.read l).1
  | write => MdioPort.settle s.mdioPort.chunks

theorem mdio_issue (op : Operation) {l : Location} {s : Simulation} (hp : s.mdioPort.page = l.page) :
    Simulation.mdio (.write defaultPhy addressRegister (l.offset.toBitVec ++ op.code)) s =
      (.ok (), { s with
        mdioPort := { s.mdioPort with
          echo := (l.offset.toBitVec ++ op.code) &&& 0xff00
          busy := if s.faults.stallMdio then op.code.setWidth 16 else 0
          chunks := op.chunks l s }
        store := op.store l s }) := by
  have hcode : ∀ b : BitVec 8, (b ++ op.code) &&& operationMask = op.code.setWidth 16 := by
    cases op <;> decide
  have hl : (⟨s.mdioPort.page, l.offset⟩ : Location) = l := by rw [hp]
  have hwrite :
      MdioPort.write s.faults.stallMdio addressRegister (l.offset.toBitVec ++ op.code) s.mdioPort s.store =
      MdioPort.operate s.faults.stallMdio l (op.code.setWidth 16)
        { s.mdioPort with echo := (l.offset.toBitVec ++ op.code) &&& 0xff00 } s.store := by
    simp only [MdioPort.write, high_append, hcode, hl]
    rfl
  simp only [Simulation.mdio, if_true, hwrite]
  cases op with
  | read => rfl
  | write => rfl

/-! ### Parts of an access -/

section
variable {settings : Settings} {n : Nat} {s : Simulation} (hphy : settings.phy = defaultPhy)
include hphy

theorem runOn_selectPage (page : UInt8) :
    runOn Simulation.mdio (settings.selectPage page) (n, s) =
      (.ok (), n, { s with mdioPort := { s.mdioPort with page } }) := by
  rw [Settings.selectPage, hphy, runOn_writeWord, mdio_selectPage]
  rfl

theorem runOn_poll : runOn Simulation.mdio (readWord settings.phy addressRegister) (n, s) =
    (.ok (s.mdioPort.echo ||| s.mdioPort.busy), n,
      { s with mdioPort := { s.mdioPort with polls := s.mdioPort.polls + 1 } }) := by
  rw [hphy, runOn_readWord, mdio_poll]
  rfl

theorem runOn_completes (h : (s.mdioPort.echo ||| s.mdioPort.busy) &&& operationMask = 0) :
    runOn Simulation.mdio (settings.completes pollLimit) (n, s) =
      (.ok true, n, { s with mdioPort := { s.mdioPort with polls := s.mdioPort.polls + 1 } }) := by
  rw [pollLimit, Settings.completes, runOn_bind_ok (runOn_poll hphy), if_pos h, runOn_pure]

theorem runOn_completes_of_busy (polls : Nat)
    (h : (s.mdioPort.echo ||| s.mdioPort.busy) &&& operationMask ≠ 0) :
    runOn Simulation.mdio (settings.completes polls) (n, s) =
      (.ok false, n, { s with
        mdioPort := { s.mdioPort with polls := s.mdioPort.polls + polls }
        elapsed := s.elapsed + polls * pollDelay }) := by
  induction polls generalizing s with
  | zero => rw [Settings.completes, runOn_pure, Nat.zero_mul, Nat.add_zero, Nat.add_zero]
  | succ polls ih =>
    rw [Settings.completes, runOn_bind_ok (runOn_poll hphy), if_neg h,
      runOn_bind_ok (runOn_delay _ _ _ _), ih (by exact h)]
    simp only [Simulation.mdio, Nat.succ_mul, Nat.add_assoc, Nat.add_comm 1, Nat.add_comm pollDelay]

/-- Once issued, an operation has taken its effect; it shows as under way exactly if the chip stalls. -/
theorem runOn_issue (op : Operation) {l : Location} (hp : s.mdioPort.page = l.page) :
    ∃ u, runOn Simulation.mdio (writeWord settings.phy addressRegister (l.offset.toBitVec ++ op.code)) (n, s) =
      (.ok (), n, u) ∧
      u.store = op.store l s ∧ u.mdioPort.chunks = op.chunks l s ∧ u.faults = s.faults ∧
      ((u.mdioPort.echo ||| u.mdioPort.busy) &&& operationMask = 0 ↔ s.faults.stallMdio = false) := by
  rw [hphy, runOn_writeWord, mdio_issue op hp]
  refine ⟨_, rfl, rfl, rfl, rfl, ?_⟩
  have hecho : ∀ b : BitVec 8, (b ++ op.code) &&& 0xff00 &&& operationMask = 0 := by
    cases op <;> decide
  show ((_ &&& 0xff00) ||| (if s.faults.stallMdio then op.code.setWidth 16 else 0)) &&& operationMask = 0 ↔ _
  rw [BitVec.and_or_distrib_right, hecho]
  cases s.faults.stallMdio with
  | false => simp
  | true => cases op <;> decide

/-- An operation takes its effect and is then waited for; if the chip stalls, the wait is in vain. -/
theorem runOn_operate (op : Operation) {l : Location} (hp : s.mdioPort.page = l.page) :
    ∃ m u, runOn Simulation.mdio (settings.operate l op) (n, s) =
        (if s.faults.stallMdio ∧ settings.strict then .error (.mdioTimeout l) else .ok (), m, u) ∧
      u.store = op.store l s ∧ u.mdioPort.chunks = op.chunks l s ∧ u.faults = s.faults := by
  obtain ⟨u, hissue, hstore, hchunks, hfaults, hbusy⟩ := runOn_issue (n := n) hphy op hp
  rw [Settings.operate, runOn_bind_ok hissue]
  cases hstall : s.faults.stallMdio with
  | false =>
    rw [runOn_bind_ok (runOn_completes hphy (hbusy.mpr hstall))]
    exact ⟨_, _, rfl, hstore, hchunks, hfaults⟩
  | true =>
    rw [runOn_bind_ok (runOn_completes_of_busy hphy _ fun h => by simp [hbusy.mp h] at hstall)]
    cases settings.strict with
    | false => exact ⟨_, _, rfl, hstore, hchunks, hfaults⟩
    | true => exact ⟨_, _, rfl, hstore, hchunks, hfaults⟩

/-- Loading words fills the data registers from the first one on, on any device that takes them as the chip
    does. -/
theorem runOn_load {σ : Type} {d : Device MdioBus σ} (view : σ → Simulation) {K : Nat → σ → Prop}
    {words : List (BitVec 16)} (hlen : words.length ≤ 4)
    (hstep : ∀ i word u, i < words.length → K i u →
      ∃ v, d (.write defaultPhy (dataRegister i) word) u = (.ok (), v) ∧
      view v = (Simulation.mdio (.write defaultPhy (dataRegister i) word) (view u)).2 ∧ K (i + 1) v)
    {s : σ} (hs : K 0 s) :
    ∃ u, runOn d (settings.load words) (n, s) = (.ok (), n, u) ∧ K words.length u ∧
      (view u).mdioPort.pending = words ++ (view s).mdioPort.pending.drop words.length ∧
      (view u).mdioPort.page = (view s).mdioPort.page ∧ (view u).store = (view s).store ∧
        (view u).faults = (view s).faults := by
  let I (i : Nat) (u : σ) : Prop :=
    K i u ∧ (view u).mdioPort.pending = words.take i ++ (view s).mdioPort.pending.drop i ∧
      (view u).mdioPort.page = (view s).mdioPort.page ∧ (view u).store = (view s).store ∧
        (view u).faults = (view s).faults
  have hloop : ∀ i (x : BitVec 16 × Nat) u, words.zipIdx[i]? = some x → I i u →
      ∃ v, runOn d (writeWord settings.phy (dataRegister x.2) x.1) (n, u) = (.ok (), n, v) ∧ I (i + 1) v := by
    rintro i ⟨word, j⟩ u hi ⟨hk, hpending, hpage, hstore, hfaults⟩
    rw [List.getElem?_zipIdx] at hi
    obtain ⟨_, hword, hpair⟩ := Option.map_eq_some_iff.mp hi
    obtain ⟨rfl, rfl⟩ := Prod.mk.inj hpair
    obtain ⟨hlt, -⟩ := List.getElem?_eq_some_iff.mp hword
    obtain ⟨v, hv, hview, hk'⟩ := hstep i _ u hlt hk
    have hplace : i < (view s).mdioPort.pending.length := by
      rw [MdioPort.length_pending]
      omega
    rw [mdio_load (i := i) (by omega)] at hview
    refine ⟨v, ?_, hk', ?_, ?_⟩
    · rw [runOn_writeWord, Nat.zero_add, hphy, hv]
      rfl
    · rw [hview, MdioPort.pending_load _ (by omega), hpending, set_take_drop hword hplace]
    · rw [hview]
      exact ⟨hpage, hstore, hfaults⟩
  obtain ⟨u, hu, hk, hpending, hrest⟩ := runOn_forM hloop ⟨hs, rfl, rfl, rfl, rfl⟩
  rw [List.length_zipIdx] at hk hpending
  rw [List.take_length] at hpending
  exact ⟨u, hu, hk, hpending, hrest⟩

/-- The data registers give the limbs of the value that they show. -/
theorem runOn_collect {value : BitVec 64} (hs : s.mdioPort.chunks = MdioPort.shown value) {count : Nat}
    (h : count ≤ 4) :
    runOn Simulation.mdio (settings.collect count) (n, s) = (.ok (Word.limbs 16 count value), n, s) := by
  refine runOn_mapM fun i hi => ?_
  have hi : i < 4 := Nat.lt_of_lt_of_le (List.mem_range.mp hi) h
  have hword : s.mdioPort.chunks[i].word = value.extractLsb' (16 * i) 16 := by
    simp [hs, MdioPort.shown]
  rw [hphy, runOn_readWord, mdio_readData hi s, hword]
  rfl

end

end PseudoPhy

/-! ### Whole accesses -/

/-- No data register of the pseudo PHY counts as loaded. -/
def MdioPort.Settled (p : MdioPort) : Prop := ∀ c ∈ p.chunks.toList, c.loaded = false

theorem MdioPort.settled_of_shown {p : MdioPort} {value : BitVec 64} (h : p.chunks = shown value) :
    p.Settled := by
  intro c hc
  rw [h, shown, Vector.toList_ofFn, List.mem_ofFn] at hc
  obtain ⟨i, rfl⟩ := hc
  rfl

theorem MdioPort.settled_of_settle {p : MdioPort} {chunks : Vector Chunk 4} (h : p.chunks = settle chunks) :
    p.Settled := by
  intro c hc
  rw [h, settle, Vector.toList_map, List.mem_map] at hc
  obtain ⟨c', -, rfl⟩ := hc
  rfl

theorem PseudoPhy.Operation.settled {op : Operation} {l : Location} {s u : Simulation}
    (h : u.mdioPort.chunks = op.chunks l s) : u.mdioPort.Settled := by
  cases op with
  | read => exact MdioPort.settled_of_shown h
  | write => exact MdioPort.settled_of_settle h

theorem MdioPort.Settled.pending {p : MdioPort} (h : p.Settled) : p.pending = List.replicate 4 0 := by
  refine List.eq_replicate_iff.mpr ⟨p.length_pending, fun word hword => ?_⟩
  obtain ⟨c, hc, rfl⟩ := List.mem_map.mp hword
  simp [h c hc]

namespace PseudoPhy
variable {settings : Settings} {s : Simulation}

/-- A read over MDIO is a read of the store, whatever the chip's data registers held; it leaves none of
    them loaded. If the chip stalls, only strict settings turn it into a failure. -/
theorem device_read (hphy : settings.phy = defaultPhy) (a : Address) (n : Nat) (s : Simulation) :
    ∃ m u, settings.layer.device Simulation.mdio (.read a) (n, s) =
        (if s.faults.stallMdio ∧ settings.strict then .error (.mdioTimeout a.location)
          else .ok (a.width.truncate (s.store.read a.location).1), m, u) ∧
      u.store = (s.store.read a.location).2 ∧ u.faults = s.faults ∧ u.mdioPort.Settled := by
  obtain ⟨m, u, hop, hstore, hchunks, hfaults⟩ :=
    runOn_operate (n := n) (s := { s with mdioPort := { s.mdioPort with page := a.location.page } }) hphy .read
      (l := a.location) rfl
  refine ⟨m, u, ?_, hstore, hfaults, Operation.settled hchunks⟩
  rw [device_read_eq, Settings.read, runOn_bind_ok (runOn_selectPage hphy _)]
  by_cases hfail : s.faults.stallMdio ∧ settings.strict
  · rw [if_pos hfail] at hop ⊢
    exact runOn_bind_error hop
  · rw [if_neg hfail] at hop ⊢
    rw [runOn_bind_ok hop, runOn_bind_ok (runOn_collect hphy hchunks (chunks_le _)), runOn_pure,
      truncate_ofLimbs_limbs]

/-- A write over MDIO is a write of the store, but of what was pending above its own words, too. It leaves
    nothing pending. -/
theorem device_write_pending (hphy : settings.phy = defaultPhy) (a : Address) (value : BitVec 64) (n : Nat)
    (s : Simulation) :
    ∃ m u, settings.layer.device Simulation.mdio (.write a value) (n, s) =
        (if s.faults.stallMdio ∧ settings.strict then .error (.mdioTimeout a.location) else .ok (), m, u) ∧
      u.store = s.store.write a.location
        (Word.ofLimbs (Word.limbs 16 (chunks a.width) (a.width.truncate value) ++
        s.mdioPort.pending.drop (chunks a.width))) ∧
      u.faults = s.faults ∧ u.mdioPort.Settled := by
  have hlen : (Word.limbs 16 (chunks a.width) (a.width.truncate value)).length ≤ 4 := by
    rw [Word.length_limbs]
    exact chunks_le _
  obtain ⟨v, hload, -, hpending, hpage, hvstore, hvfaults⟩ :=
    runOn_load (n := n) (d := Simulation.mdio) (K := fun _ _ => True) hphy (fun u => u) hlen
      (fun i word u hi _ => ⟨_, mdio_load (by omega) word u, by rw [mdio_load (by omega)], trivial⟩)
      (s := { s with mdioPort := { s.mdioPort with page := a.location.page } }) trivial
  obtain ⟨m, u, hop, hstore, hchunks, hfaults⟩ := runOn_operate (n := n) hphy .write (l := a.location) hpage
  refine ⟨m, u, ?_, ?_, hfaults.trans hvfaults, Operation.settled hchunks⟩
  · rw [device_write_eq, Settings.write, runOn_bind_ok (runOn_selectPage hphy _),
      runOn_bind_ok hload, hop, hvfaults]
  · rw [Word.length_limbs] at hpending
    rw [hstore, Operation.store, hvstore]
    exact congrArg (fun words => s.store.write a.location (Word.ofLimbs words)) hpending

/-- A write over MDIO to a chip without loaded data registers is a write of the store, and leaves none
    loaded. -/
theorem device_write (hphy : settings.phy = defaultPhy) (a : Address) (value : BitVec 64) (n : Nat)
    (s : Simulation) :
    ∃ m u, settings.layer.device Simulation.mdio (.write a value) (n, s) =
        (if s.faults.stallMdio ∧ settings.strict then .error (.mdioTimeout a.location) else .ok (), m, u) ∧
      (s.mdioPort.Settled → u.store = s.store.write a.location (a.width.truncate value)) ∧ u.faults = s.faults ∧
      u.mdioPort.Settled := by
  obtain ⟨m, u, hu, hstore, hfaults, hsettled⟩ := device_write_pending hphy a value n s
  refine ⟨m, u, hu, fun hnone => ?_, hfaults, hsettled⟩
  rw [hstore, hnone.pending, List.drop_replicate, Word.ofLimbs_append_zeros fun z hz =>
    List.eq_of_mem_replicate hz,
    ofLimbs_limbs_truncate]

/-! ### The bus calls of an access -/

/-- Every bus call of the transaction satisfies `P`, and the first one that is refused ends it with the
    refusal as an error. -/
structure Uses {α : Type} (P : MdioBus.Call → Prop) (t : Transaction α) : Prop where
  calls : ∀ n, (t.run.run n).Calls P
  prompt : ∀ n, (t.run.run n).Prompt fun e (answer : Except Error α × Nat) => answer.1 = .error (.io e)

section
variable {α β : Type} {P : MdioBus.Call → Prop}

theorem uses_pure (a : α) : Uses P (pure a) := ⟨fun _ => trivial, fun _ => trivial⟩

theorem uses_throw (e : Error) : Uses P (throw e : Transaction α) := ⟨fun _ => trivial, fun _ => trivial⟩

theorem uses_modify (f : Nat → Nat) : Uses P (modify f : Transaction PUnit) :=
  ⟨fun _ => trivial, fun _ => trivial⟩

theorem uses_readWord {phy register : UInt8} (h : P (.read phy register)) : Uses P (readWord phy register) := by
  refine ⟨fun n => ⟨h, fun _ => trivial⟩, fun n => ⟨fun refuse hr e => ?_, fun _ => trivial⟩⟩
  obtain rfl := Option.some.inj hr
  exact ⟨_, rfl, rfl⟩

theorem uses_writeWord {phy register : UInt8} {word : BitVec 16} (h : P (.write phy register word)) :
    Uses P (writeWord phy register word) := by
  refine ⟨fun n => ⟨h, fun _ => trivial⟩, fun n => ⟨fun refuse hr e => ?_, fun _ => trivial⟩⟩
  obtain rfl := Option.some.inj hr
  exact ⟨_, rfl, rfl⟩

theorem once_writeWord (phy register : UInt8) (word : BitVec 16) (n : Nat) :
    ((writeWord phy register word).run.run n).Once P :=
  Or.inr fun _ => trivial

theorem uses_delay {micros : Nat} (h : P (.delay micros)) : Uses P (delay micros) := by
  refine ⟨fun n => ⟨h, fun _ => trivial⟩, fun n => ⟨fun refuse hr => ?_, fun _ => trivial⟩⟩
  cases hr

theorem Uses.bind {t : Transaction α} {f : α → Transaction β} (ht : Uses P t) (hf : ∀ a, Uses P (f a)) :
    Uses P (t >>= f) where
  calls n := by
    refine Program.Calls.bind (p := t.run.run n) (f := fun v => (ExceptT.bindCont f v.1).run v.2)
      (ht.calls n) ?_
    rintro ⟨_ | a, m⟩
    · trivial
    · exact (hf a).calls m
  prompt n := by
    refine Program.Prompt.bind (p := t.run.run n) (f := fun v => (ExceptT.bindCont f v.1).run v.2)
      (ht.prompt n) ?_ ?_
    · rintro e ⟨_, m⟩ rfl
      exact ⟨_, rfl, rfl⟩
    · rintro ⟨_ | a, m⟩
      · trivial
      · exact (hf a).prompt m

/-- A transaction whose first part makes only calls in `P`, and whose second at most one other. -/
theorem Uses.bind_once {t : Transaction α} {f : α → Transaction β} (ht : Uses P t)
    (hf : ∀ a n, ((f a).run.run n).Once P) (n : Nat) : ((t >>= f).run.run n).Once P := by
  refine Program.Calls.bind_once (p := t.run.run n) (f := fun v => (ExceptT.bindCont f v.1).run v.2)
    (ht.calls n) ?_
  rintro ⟨_ | a, m⟩
  · trivial
  · exact hf a m

/-- A transaction whose first part makes at most one call that is not in `P`, and whose second none. -/
theorem once_bind {t : Transaction α} {f : α → Transaction β} (ht : ∀ n, (t.run.run n).Once P)
    (hf : ∀ a, Uses P (f a)) (n : Nat) : ((t >>= f).run.run n).Once P := by
  refine Program.Once.bind (p := t.run.run n) (f := fun v => (ExceptT.bindCont f v.1).run v.2) (ht n) ?_
  rintro ⟨_ | a, m⟩
  · trivial
  · exact (hf a).calls m

theorem Uses.forM {xs : List α} {f : α → Transaction PUnit} (h : ∀ x ∈ xs, Uses P (f x)) :
    Uses P (xs.forM f) := by
  induction xs with
  | nil => exact uses_pure _
  | cons x xs ih =>
    rw [List.forM_eq_forM, List.forM_cons]
    exact (h x List.mem_cons_self).bind fun _ => ih fun y hy => h y (List.mem_cons_of_mem x hy)

theorem Uses.mapM {xs : List α} {f : α → Transaction β} (h : ∀ x ∈ xs, Uses P (f x)) : Uses P (xs.mapM f) := by
  induction xs with
  | nil =>
    rw [List.mapM_nil]
    exact uses_pure _
  | cons x xs ih =>
    rw [List.mapM_cons]
    exact (h x List.mem_cons_self).bind fun y =>
      (ih fun z hz => h z (List.mem_cons_of_mem x hz)).bind fun _ => uses_pure _

end

/-- What follows the issue of an operation. -/
def Settings.wait (settings : Settings) (l : Location) : Transaction Unit := do
  if ← settings.completes pollLimit then return
  modify (· + 1)
  if settings.strict then throw (.mdioTimeout l)

theorem operate_eq (settings : Settings) (l : Location) (op : Operation) :
    settings.operate l op = (do
      writeWord settings.phy addressRegister (l.offset.toBitVec ++ op.code)
      settings.wait l) := rfl

/-- The calls that settings make once an operation is issued. -/
structure Settings.Polls (settings : Settings) (P : MdioBus.Call → Prop) : Prop where
  read : ∀ register, P (.read settings.phy register)
  delay : ∀ micros, P (.delay micros)

/-- The calls that settings make, but for those that issue an operation. -/
structure Settings.Allows (settings : Settings) (P : MdioBus.Call → Prop) : Prop extends settings.Polls P where
  write : ∀ register word, register ≠ addressRegister → P (.write settings.phy register word)

theorem uses_collect {P : MdioBus.Call → Prop} (h : settings.Polls P) (count : Nat) :
    Uses P (settings.collect count) :=
  .mapM fun _ _ => uses_readWord (h.read _)

section
variable {P : MdioBus.Call → Prop} (hpoll : P (.read settings.phy addressRegister))
    (hdelay : P (.delay pollDelay))
include hpoll hdelay

theorem uses_completes (polls : Nat) : Uses P (settings.completes polls) := by
  induction polls with
  | zero => exact uses_pure _
  | succ polls ih =>
    refine (uses_readWord hpoll).bind fun word => ?_
    split
    · exact uses_pure _
    · exact (uses_delay hdelay).bind fun _ => ih

theorem uses_wait (l : Location) : Uses P (settings.wait l) := by
  refine (uses_completes hpoll hdelay _).bind fun done => ?_
  split
  · exact uses_pure _
  · refine (uses_modify _).bind fun _ => ?_
    split
    · exact uses_throw _
    · exact uses_pure _

end

section
variable {P : MdioBus.Call → Prop}
    (hwrite : ∀ register word, register ≠ addressRegister → P (.write settings.phy register word))
include hwrite

theorem uses_selectPage (page : UInt8) : Uses P (settings.selectPage page) :=
  uses_writeWord (hwrite _ _ (by decide))

theorem uses_load {words : List (BitVec 16)} (hlen : words.length ≤ 4) : Uses P (settings.load words) := by
  refine .forM fun ⟨word, i⟩ hi => uses_writeWord (hwrite _ _ ?_)
  have : i < 4 := by
    have := (List.mem_zipIdx' hi).1
    omega
  exact dataRegister_ne_address ⟨i, this⟩

end

section
variable {P : MdioBus.Call → Prop} (h : settings.Allows P)
include h

theorem once_operate (l : Location) (op : Operation) (n : Nat) : ((settings.operate l op).run.run n).Once P :=
  once_bind (once_writeWord _ _ _) (fun _ => uses_wait (h.read _) (h.delay _) l) n

theorem once_read (a : Address) (n : Nat) : ((settings.read a).run.run n).Once P :=
  (uses_selectPage h.write _).bind_once
    (fun _ => once_bind (once_operate h _ _) fun _ => (uses_collect h.toPolls _).bind fun _ => uses_pure _) n

theorem once_write (a : Address) (value : BitVec 64) (n : Nat) :
    ((settings.write a value).run.run n).Once P := by
  refine (uses_selectPage h.write _).bind_once
    (fun _ => (uses_load h.write ?_).bind_once fun _ => once_operate h _ _) n
  rw [Word.length_limbs]
  exact chunks_le _

variable (hissue : ∀ (l : Location) (op : Operation),
  P (.write settings.phy addressRegister (l.offset.toBitVec ++ op.code)))
include hissue

theorem uses_operate (l : Location) (op : Operation) : Uses P (settings.operate l op) :=
  (uses_writeWord (hissue l op)).bind fun _ => uses_wait (h.read _) (h.delay _) l

theorem uses_read (a : Address) : Uses P (settings.read a) :=
  (uses_selectPage h.write _).bind fun _ => (uses_operate h hissue _ _).bind fun _ =>
    (uses_collect h.toPolls _).bind fun _ => uses_pure _

theorem uses_write (a : Address) (value : BitVec 64) : Uses P (settings.write a value) := by
  refine (uses_selectPage h.write _).bind fun _ => (uses_load h.write ?_).bind fun _ =>
    uses_operate h hissue _ _
  rw [Word.length_limbs]
  exact chunks_le _

end

section
variable {P : MdioBus.Call → Prop} (h : settings.Allows P) (c : Registers.Call) (n : Nat)
include h

theorem once_layer : ((settings.layer c).run n).Once P := by
  cases c with
  | read a => exact once_read h a n
  | write a value => exact once_write h a value n

theorem calls_layer
    (hissue : ∀ (l : Location) (op : Operation),
      P (.write settings.phy addressRegister (l.offset.toBitVec ++ op.code))) :
    ((settings.layer c).run n).Calls P := by
  cases c with
  | read a => exact (uses_read h hissue a).calls n
  | write a value => exact (uses_write h hissue a value).calls n

end

/-- The first bus call that is refused ends an access with the refusal. -/
theorem prompt_layer (settings : Settings) (c : Registers.Call) (n : Nat) :
    ((settings.layer c).run n).Prompt fun e v =>
      ∃ refuse, Refusable.refusal (I := Registers) c = some refuse ∧ v.1 = refuse (.io e) := by
  have hallow : settings.Allows fun _ => True := ⟨⟨fun _ => trivial, fun _ => trivial⟩, fun _ _ _ => trivial⟩
  cases c with
  | read a => exact ((uses_read hallow (fun _ _ => trivial) a).prompt n).mono fun _ _ hv => ⟨_, rfl, hv⟩
  | write a value =>
    exact ((uses_write hallow (fun _ _ => trivial) a value).prompt n).mono fun _ _ hv => ⟨_, rfl, hv⟩

end PseudoPhy

/-! ### What bus calls leave alone -/

namespace Simulation

theorem mdio_faults (c : MdioBus.Call) (s : Simulation) : (mdio c s).2.faults = s.faults := by
  cases c with
  | read phy register =>
    rw [mdio]
    split <;> rfl
  | write phy register word =>
    rw [mdio]
    split <;> rfl
  | delay micros => rfl

theorem operate_store (stall : Bool) (l : Location) (code : BitVec 16) (p : MdioPort) (s : Store) :
    (p.operate stall l code s).2.2 = s ∨ (p.operate stall l code s).2.2 = (s.read l).2 ∨
      (p.operate stall l code s).2.2 = s.write l p.loadedValue := by
  by_cases hread : code = PseudoPhy.Operation.read.code.setWidth 16
  · refine Or.inr (Or.inl ?_)
    simp only [MdioPort.operate, if_pos hread]
  · by_cases hwrite : code = PseudoPhy.Operation.write.code.setWidth 16
    · refine Or.inr (Or.inr ?_)
      simp only [MdioPort.operate, if_neg hread, if_pos hwrite]
    · refine Or.inl ?_
      simp only [MdioPort.operate, if_neg hread, if_neg hwrite]

/-- A call reads or writes the store once at most. -/
theorem mdio_store_cases (c : MdioBus.Call) (s : Simulation) :
    (mdio c s).2.store = s.store ∨
      ∃ l, (mdio c s).2.store = (s.store.read l).2 ∨ ∃ value, (mdio c s).2.store = s.store.write l value := by
  cases c with
  | read phy register =>
    refine Or.inl ?_
    rw [mdio]
    split <;> rfl
  | write phy register word =>
    rw [mdio]
    split
    case isFalse => exact Or.inl rfl
    case isTrue =>
      have hport : (s.mdioPort.write s.faults.stallMdio register word s.store).2.2 = s.store ∨
          ∃ l, (s.mdioPort.write s.faults.stallMdio register word s.store).2.2 = (s.store.read l).2 ∨
            ∃ value, (s.mdioPort.write s.faults.stallMdio register word s.store).2.2 =
              s.store.write l value := by
        unfold MdioPort.write
        split
        · exact Or.inl rfl
        · split
          · rcases operate_store s.faults.stallMdio ⟨s.mdioPort.page, UInt8.ofBitVec (word.extractLsb' 8 8)⟩
              (word &&& PseudoPhy.operationMask) { s.mdioPort with echo := word &&& 0xff00 } s.store
                with h | h | h
            · exact Or.inl h
            · exact Or.inr ⟨_, Or.inl h⟩
            · exact Or.inr ⟨_, Or.inr ⟨_, h⟩⟩
          · split <;> exact Or.inl rfl
      exact hport
  | delay micros => exact Or.inl rfl

/-- Calls on another PHY pass the chip by. -/
theorem mdio_of_other {phy register : UInt8} (h : phy ≠ PseudoPhy.defaultPhy) (s : Simulation) :
    (mdio (.read phy register) s).2 = s ∧ ∀ word, (mdio (.write phy register word) s).2 = s := by
  simp [mdio, h]

/-- The calls that issue no operation do not reach the store. -/
theorem mdio_store (settings : PseudoPhy.Settings) :
    settings.Allows fun c => ∀ s, (mdio c s).2.store = s.store where
  read register s := by
    rw [mdio]
    split <;> rfl
  delay _ _ := rfl
  write register word h s := by
    have hport : (s.mdioPort.write s.faults.stallMdio register word s.store).2.2 = s.store := by
      simp only [MdioPort.write, if_neg h]
      split
      · rfl
      · split <;> rfl
    rw [mdio]
    split
    · exact hport
    · rfl

end Simulation

end EtherSwitch
