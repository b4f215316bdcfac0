import EtherSwitch.Proofs.Calls
import EtherSwitch.Simulation

/-! Register accesses over SPI on the simulated chip. The bus interface takes some offsets for itself; an
    access at any other one does to the store what its call says, whatever the interface held before
    (`device_read`, `device_write`). -/

namespace EtherSwitch

namespace SpiFrames
variable {α β σ : Type}

/-- The offsets that the bus interface keeps for its own registers. -/
def reserved : List UInt8 := statusRegister :: pageRegister :: (List.range 8).map dataRegister

theorem ofLimbs_valueBytes (w : Width) (value : BitVec 64) :
    Word.ofLimbs ((valueBytes w value).map UInt8.toBitVec) = w.truncate value := by
  have hbits : (Word.limbs 8 w.bytes value).map (UInt8.toBitVec ∘ UInt8.ofBitVec) =
      Word.limbs 8 w.bytes value := List.map_id _
  rw [valueBytes, List.map_map, hbits, Word.ofLimbs_limbs, Width.truncate_eq_setWidth]
  rfl

theorem bytes_le (w : Width) : w.bytes ≤ 8 := by cases w <;> decide

/-! ### Running transactions -/

/-- Runs a transaction on a bus. -/
def runOn (d : Device SpiBus σ) (t : Transaction α) (s : σ) : Except Error α × σ := Program.run d t.run s

section
variable (d : Device SpiBus σ) (s : σ)

theorem device_read_eq (a : Address) :
    layer.device d (.read a) ((), s) = ((runOn d (read a) s).1, (), (runOn d (read a) s).2) := by
  have h : Program.run d ((read a).run >>= fun answer => Program.done (answer, ())) s =
      (((runOn d (read a) s).1, ()), (runOn d (read a) s).2) := by
    rw [Program.run_bind]
    rfl
  exact congrArg (fun p => (p.1.1, p.1.2, p.2)) h

theorem device_write_eq (a : Address) (value : BitVec 64) :
    layer.device d (.write a value) ((), s) =
      ((runOn d (write a value) s).1, (), (runOn d (write a value) s).2) := by
  have h : Program.run d ((write a value).run >>= fun answer => Program.done (answer, ())) s =
      (((runOn d (write a value) s).1, ()), (runOn d (write a value) s).2) := by
    rw [Program.run_bind]
    rfl
  exact congrArg (fun p => (p.1.1, p.1.2, p.2)) h

theorem runOn_pure (a : α) : runOn d (pure a) s = (.ok a, s) := rfl

theorem runOn_send (bytes : List UInt8) :
    runOn d (send bytes) s = ((d (.write bytes) s).1.mapError .io, (d (.write bytes) s).2) := rfl

theorem runOn_readByte (register : UInt8) :
    runOn d (readByte register) s =
      (((d (.transfer [readCommand, register] 1) s).1.map fun bytes => bytes.headD 0).mapError .io,
        (d (.transfer [readCommand, register] 1) s).2) := rfl

end

section
variable {d : Device SpiBus σ} {s u : σ}

theorem runOn_bind (t : Transaction α) (f : α → Transaction β) :
    runOn d (t >>= f) s = Program.run d (ExceptT.bindCont f (runOn d t s).1) (runOn d t s).2 :=
  Program.run_bind d t.run _ s

theorem runOn_bind_ok {t : Transaction α} {f : α → Transaction β} {a : α} (h : runOn d t s = (.ok a, u)) :
    runOn d (t >>= f) s = runOn d (f a) u := by
  rw [runOn_bind, h]
  rfl

theorem runOn_bind_error {t : Transaction α} {f : α → Transaction β} {e : Error}
    (h : runOn d t s = (.error e, u)) :
    runOn d (t >>= f) s = (.error e, u) := by
  rw [runOn_bind, h]
  rfl

theorem runOn_mapM {xs : List α} {f : α → Transaction β} {g : α → β}
    (h : ∀ x ∈ xs, runOn d (f x) s = (.ok (g x), s)) : runOn d (xs.mapM f) s = (.ok (xs.map g), s) := by
  induction xs with
  | nil => rw [List.mapM_nil, runOn_pure, List.map_nil]
  | cons x xs ih =>
    rw [List.mapM_cons, runOn_bind_ok (h x List.mem_cons_self),
      runOn_bind_ok (ih fun y hy => h y (List.mem_cons_of_mem x hy)), runOn_pure, List.map_cons]

end

/-! ### The chip's answers -/

section
variable {s : Simulation} {offset : UInt8}

theorem byteIndex?_dataRegister {i : Nat} (h : i < 8) : SpiPort.byteIndex? (dataRegister i) = some i := by
  have : ∀ j : Fin 8, SpiPort.byteIndex? (dataRegister j) = some j.val := by decide
  exact this ⟨i, h⟩

theorem dataRegister_ne_status {i : Nat} (h : i < 8) : dataRegister i ≠ statusRegister := by
  have : ∀ j : Fin 8, dataRegister j ≠ statusRegister := by decide
  exact this ⟨i, h⟩

theorem byteIndex?_of_plain (h : offset ∉ reserved) : SpiPort.byteIndex? offset = none := by
  rw [SpiPort.byteIndex?, if_neg]
  rintro ⟨hle, hlt⟩
  have hle : 240 ≤ offset.toNat := hle
  have hlt : offset.toNat - 240 < 8 := hlt
  refine h (List.mem_cons_of_mem _ (List.mem_cons_of_mem _ (List.mem_map.mpr ⟨offset.toNat - 240, ?_, ?_⟩)))
  · exact List.mem_range.mpr hlt
  · apply UInt8.toNat_inj.mp
    rw [dataRegister, UInt8.toNat_add, UInt8.toNat_ofNat', show (0xf0 : UInt8).toNat = 240 from rfl]
    omega

theorem runOn_selectPage (page : UInt8) (s : Simulation) :
    runOn Simulation.spi (selectPage page) s = (.ok (), { s with spiPort := { s.spiPort with page } }) := rfl

/-- Touching a register outside the bus interface reads it from the store. -/
theorem runOn_touch (h : offset ∉ reserved) (s : Simulation) :
    ∃ u, runOn Simulation.spi (readByte offset) s = (.ok 0, u) ∧
      u.store = (s.store.read ⟨s.spiPort.page, offset⟩).2 ∧
      u.spiPort.data = (s.store.read ⟨s.spiPort.page, offset⟩).1 ∧ u.spiPort.ready = !s.faults.neverAckSpi ∧
      u.faults = s.faults := by
  have hstatus : offset ≠ statusRegister := fun e => h (e ▸ List.mem_cons_self)
  rw [runOn_readByte]
  simp only [Simulation.spi, SpiPort.transfer, SpiPort.readByte, if_true, if_neg hstatus, byteIndex?_of_plain h]
  exact ⟨_, rfl, rfl, rfl, rfl, rfl⟩

theorem runOn_awaitAcknowledge (location : Location) (h : s.spiPort.ready = true) :
    runOn Simulation.spi (awaitAcknowledge location pollLimit) s =
      (.ok (), { s with spiPort := { s.spiPort with polls := s.spiPort.polls + 1 } }) := by
  have hread : runOn Simulation.spi (readByte statusRegister) s =
      (.ok acknowledged, { s with spiPort := { s.spiPort with polls := s.spiPort.polls + 1 } }) := by
    rw [runOn_readByte]
    simp only [Simulation.spi, SpiPort.transfer, SpiPort.readByte, h, if_true]
    rfl
  rw [pollLimit, awaitAcknowledge, runOn_bind_ok hread, if_pos (by decide), runOn_pure]

/-- A read that is never acknowledged is given up after the polls that it is granted. -/
theorem runOn_awaitAcknowledge_of_unready (location : Location) (h : s.spiPort.ready = false) (polls : Nat) :
    ∃ u, runOn Simulation.spi (awaitAcknowledge location polls) s = (.error (.spiTimeout location), u) ∧
      u.store = s.store ∧
      u.faults = s.faults := by
  induction polls generalizing s with
  | zero => exact ⟨s, rfl, rfl, rfl⟩
  | succ polls ih =>
    have hread : runOn Simulation.spi (readByte statusRegister) s =
        (.ok 0, { s with spiPort := { s.spiPort with polls := s.spiPort.polls + 1 } }) := by
      rw [runOn_readByte]
      simp only [Simulation.spi, SpiPort.transfer, SpiPort.readByte, h, if_true]
      rfl
    have hdelay : ∀ u : Simulation, runOn Simulation.spi (delay pollDelay) u =
        (.ok (), { u with elapsed := u.elapsed + pollDelay }) :=
      fun _ => rfl
    obtain ⟨u, hu, hstore, hfaults⟩ := ih (s := { s with
      spiPort := { s.spiPort with polls := s.spiPort.polls + 1 }
      elapsed := s.elapsed + pollDelay }) h
    refine ⟨u, ?_, hstore, hfaults⟩
    rw [awaitAcknowledge, runOn_bind_ok hread, if_neg (by decide), runOn_bind_ok (hdelay _), hu]

/-- The data registers give the bytes of the value read last. -/
theorem runOn_collect {count : Nat} (h : count ≤ 8) :
    runOn Simulation.spi (collect count) s =
      (.ok ((List.range count).reverse.map fun i => UInt8.ofBitVec (s.spiPort.data.extractLsb' (8 * i) 8)),
        s) := by
  refine runOn_mapM fun i hi => ?_
  have hi : i < 8 := Nat.lt_of_lt_of_le (List.mem_range.mp (List.mem_reverse.mp hi)) h
  rw [runOn_readByte]
  simp only [Simulation.spi, SpiPort.transfer, SpiPort.readByte, if_neg (dataRegister_ne_status hi),
    byteIndex?_dataRegister hi]
  rfl

end

/-! ### Whole accesses -/

section
variable {s : Simulation}

/-- A read over SPI at a plain offset is a read of the store. -/
theorem device_read {a : Address} (h : a.location.offset ∉ reserved) (hack : s.faults.neverAckSpi = false) :
    ∃ u, layer.device Simulation.spi (.read a) ((), s) =
      (.ok (a.width.truncate (s.store.read a.location).1), (), u) ∧
      u.store = (s.store.read a.location).2 ∧ u.faults = s.faults := by
  obtain ⟨u, htouch, hstore, hdata, hready, hfaults⟩ :=
    runOn_touch h { s with spiPort := { s.spiPort with page := a.location.page } }
  have hcollected : Word.ofLimbs ((((List.range a.width.bytes).reverse.map fun i =>
      UInt8.ofBitVec (u.spiPort.data.extractLsb' (8 * i) 8)).reverse).map UInt8.toBitVec) =
        a.width.truncate u.spiPort.data := by
    rw [← List.map_reverse, List.reverse_reverse, ← ofLimbs_valueBytes, valueBytes, Word.limbs,
      List.map_map (g := UInt8.ofBitVec)]
    rfl
  refine ⟨{ u with spiPort := { u.spiPort with polls := u.spiPort.polls + 1 } }, ?_, hstore, hfaults⟩
  rw [device_read_eq, read, runOn_bind_ok (runOn_selectPage _ _), runOn_bind_ok htouch,
    runOn_bind_ok (runOn_awaitAcknowledge _ (by rw [hready, hack]; rfl)),
      runOn_bind_ok (runOn_collect (bytes_le _)), runOn_pure,
    hcollected, hdata]

/-- A read over SPI that the chip never acknowledges still starts, and then times out. -/
theorem device_read_of_unacknowledged {a : Address} (h : a.location.offset ∉ reserved)
    (hack : s.faults.neverAckSpi = true) :
    ∃ u, layer.device Simulation.spi (.read a) ((), s) = (.error (.spiTimeout a.location), (), u) ∧
      u.store = (s.store.read a.location).2 ∧ u.faults = s.faults := by
  obtain ⟨u, htouch, hstore, -, hready, hfaults⟩ :=
    runOn_touch h { s with spiPort := { s.spiPort with page := a.location.page } }
  have hunready : u.spiPort.ready = false := by
    rw [hready, hack]
    rfl
  obtain ⟨v, hwait, hstore', hfaults'⟩ := runOn_awaitAcknowledge_of_unready a.location hunready pollLimit
  refine ⟨v, ?_, hstore'.trans hstore, hfaults'.trans hfaults⟩
  rw [device_read_eq, read, runOn_bind_ok (runOn_selectPage _ _), runOn_bind_ok htouch, runOn_bind_error hwait]

/-- A frame of some bytes for a register other than the page one is a write of the store. -/
theorem runOn_sendValue {a : Address} (h : a.location.offset ≠ pageRegister) (value : BitVec 64)
    (hp : s.spiPort.page = a.location.page) :
    runOn Simulation.spi (send (writeCommand :: a.location.offset :: valueBytes a.width value)) s =
      (.ok (), { s with store := s.store.write a.location (a.width.truncate value) }) := by
  have hlen : (valueBytes a.width value).length = a.width.bytes := by
    rw [valueBytes, List.length_map, Word.length_limbs]
  have hfits : ¬(valueBytes a.width value = [] ∨ 8 < (valueBytes a.width value).length) := by
    rw [← List.length_eq_zero_iff, hlen]
    cases a.width <;> decide
  rw [runOn_send]
  simp only [Simulation.spi, SpiPort.write, if_true, decide_eq_false h, if_neg hfits, ofLimbs_valueBytes, hp]
  rfl

theorem device_write {a : Address} (h : a.location.offset ∉ reserved) (value : BitVec 64) :
    ∃ u, layer.device Simulation.spi (.write a value) ((), s) = (.ok (), (), u) ∧
      u.store = s.store.write a.location (a.width.truncate value) ∧ u.faults = s.faults := by
  have hpage : a.location.offset ≠ pageRegister := fun e => h (e ▸ List.mem_cons_of_mem _ List.mem_cons_self)
  refine ⟨{ s with
    spiPort := { s.spiPort with page := a.location.page }
    store := s.store.write a.location (a.width.truncate value) }, ?_, rfl, rfl⟩
  rw [device_write_eq, write, runOn_bind_ok (runOn_selectPage _ _), runOn_sendValue hpage value rfl]

end

/-! ### The bus calls of an access -/

/-- Every bus call of the transaction satisfies `P`, and the first one that is refused ends it with the
    refusal as an error. -/
abbrev Uses (P : SpiBus.Call → Prop) (t : Transaction α) : Prop := Program.Uses Error.io P t

section
variable {P : SpiBus.Call → Prop}

theorem uses_send {bytes : List UInt8} (h : P (.write bytes)) : Uses P (send bytes) := by
  refine ⟨⟨h, fun _ => trivial⟩, fun refuse hr e => ?_, fun _ => trivial⟩
  obtain rfl := Option.some.inj hr
  exact ⟨_, rfl, rfl⟩

theorem uses_readByte {register : UInt8} (h : P (.transfer [readCommand, register] 1)) :
    Uses P (readByte register) := by
  refine ⟨⟨h, fun _ => trivial⟩, fun refuse hr e => ?_, fun _ => trivial⟩
  obtain rfl := Option.some.inj hr
  exact ⟨_, rfl, rfl⟩

theorem uses_delay {micros : Nat} (h : P (.delay micros)) : Uses P (delay micros) := by
  refine ⟨⟨h, fun _ => trivial⟩, fun refuse hr => ?_, fun _ => trivial⟩
  cases hr

theorem once_send (bytes : List UInt8) : (send bytes).run.Once P := Or.inr fun _ => trivial

theorem once_readByte (register : UInt8) : (readByte register).run.Once P := Or.inr fun _ => trivial

end

/-- The calls that concern only the bus interface itself. -/
structure Allows (P : SpiBus.Call → Prop) : Prop where
  selectPage : ∀ page, P (.write [writeCommand, pageRegister, page])
  status : P (.transfer [readCommand, statusRegister] 1)
  data : ∀ i < 8, P (.transfer [readCommand, dataRegister i] 1)
  delay : ∀ micros, P (.delay micros)

section
variable {P : SpiBus.Call → Prop} (h : Allows P)
include h

theorem uses_selectPage (page : UInt8) : Uses P (selectPage page) := uses_send (h.selectPage page)

theorem uses_awaitAcknowledge (l : Location) (polls : Nat) : Uses P (awaitAcknowledge l polls) := by
  induction polls with
  | zero => exact .done _
  | succ polls ih =>
    refine (uses_readByte h.status).bind fun status => ?_
    split
    · exact .done _
    · exact (uses_delay (h.delay _)).bind fun _ => ih

theorem uses_collect {count : Nat} (hc : count ≤ 8) : Uses P (collect count) :=
  .mapM fun i hi =>
    uses_readByte (h.data i (Nat.lt_of_lt_of_le (List.mem_range.mp (List.mem_reverse.mp hi)) hc))

theorem uses_await (a : Address) :
    Uses P (do awaitAcknowledge a.location pollLimit
               let bytes ← collect a.width.bytes
               return Word.ofLimbs (bytes.reverse.map UInt8.toBitVec)) :=
  (uses_awaitAcknowledge h _ _).bind fun _ => (uses_collect h (bytes_le _)).bind fun _ => .done _

theorem uses_read {a : Address} (htouch : P (.transfer [readCommand, a.location.offset] 1)) : Uses P (read a) :=
  (uses_selectPage h _).bind fun _ => (uses_readByte htouch).bind fun _ => uses_await h a

theorem uses_write {a : Address} (value : BitVec 64)
    (hsend : P (.write (writeCommand :: a.location.offset :: valueBytes a.width value))) :
    Uses P (write a value) :=
  (uses_selectPage h _).bind fun _ => uses_send hsend

theorem once_read (a : Address) : (read a).run.Once P :=
  (uses_selectPage h _).bind_once fun _ => Program.Uses.once_bind (once_readByte _) fun _ => uses_await h a

theorem once_write (a : Address) (value : BitVec 64) : (write a value).run.Once P :=
  (uses_selectPage h _).bind_once fun _ => once_send _

theorem once_layer (c : Registers.Call) : ((layer c).run ()).Once P := by
  cases c with
  | read a => exact (once_read h a).bind fun _ => trivial
  | write a value => exact (once_write h a value).bind fun _ => trivial

end

theorem calls_layer {P : SpiBus.Call → Prop} (h : Allows P)
    (htouch : ∀ offset, P (.transfer [readCommand, offset] 1))
    (hsend : ∀ (offset : UInt8) (w : Width) (value : BitVec 64),
      P (.write (writeCommand :: offset :: valueBytes w value)))
    (c : Registers.Call) : ((layer c).run ()).Calls P := by
  cases c with
  | read a => exact (uses_read h (htouch _)).calls.bind fun _ => trivial
  | write a value => exact (uses_write h value (hsend _ _ _)).calls.bind fun _ => trivial

/-- The first bus call that is refused ends an access with the refusal. -/
theorem prompt_layer (c : Registers.Call) :
    ((layer c).run ()).Prompt fun e v =>
      ∃ refuse, Refusable.refusal (I := Registers) c = some refuse ∧ v.1 = refuse (.io e) := by
  have hallow : Allows fun _ => True := ⟨fun _ => trivial, trivial, fun _ _ => trivial, fun _ => trivial⟩
  cases c with
  | read a =>
    refine (uses_read (a := a) hallow trivial).prompt.bind ?_ fun _ => trivial
    rintro e _ rfl
    exact ⟨_, rfl, _, rfl, rfl⟩
  | write a value =>
    refine (uses_write (a := a) hallow value trivial).prompt.bind ?_ fun _ => trivial
    rintro e _ rfl
    exact ⟨_, rfl, _, rfl, rfl⟩

end SpiFrames

/-! ### What bus calls leave alone -/

namespace Simulation

theorem spi_faults (c : SpiBus.Call) (s : Simulation) : (spi c s).2.faults = s.faults := by cases c <;> rfl

theorem spi_mdioPort (c : SpiBus.Call) (s : Simulation) : (spi c s).2.mdioPort = s.mdioPort := by
  cases c <;> rfl

/-- The calls on the bus interface itself do not reach the store. -/
theorem spi_store : SpiFrames.Allows fun c => ∀ s, (spi c s).2.store = s.store where
  selectPage _ _ := rfl
  status _ := rfl
  data i hi s := by
    simp [spi, SpiPort.transfer, SpiPort.readByte, SpiFrames.dataRegister_ne_status hi,
      SpiFrames.byteIndex?_dataRegister hi]
  delay _ _ := rfl

end Simulation

end EtherSwitch
