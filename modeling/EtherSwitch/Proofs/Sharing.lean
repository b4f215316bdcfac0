import EtherSwitch.Proofs.Engine
import EtherSwitch.Proofs.Limbs
import EtherSwitch.Simulation.Shared
import Mathlib.Algebra.Group.Nat.Defs

/-! Any number of engines on one shared chip. However their accesses interleave, each one is a read or a
    write of the store, so it does not matter which engine makes it (`accesses_refine_store`). -/

namespace EtherSwitch

/-- A call with its answer. -/
abbrev Registers.Exchange : Type := (c : Registers.Call) × Registers.Answer c

namespace Store

/-- The call was answered as from the store `s`, which became `t`: a write takes the value up to the width
    of its register, a read gives the register up to its width and uses up one id read of zero at most. -/
def Performs : (c : Registers.Call) → Registers.Answer c → Store → Store → Prop
  | .read a, answer, s, t =>
    answer = .ok (BitVec.ofNat 64 ((s.read a.location).1.toNat % 2 ^ a.width.bits)) ∧
      t = (s.read a.location).2 ∧
      t.registers = s.registers ∧ t.table = s.table ∧ t.writes = s.writes ∧
      (t.zeroIdReads = s.zeroIdReads ∨ t.zeroIdReads + 1 = s.zeroIdReads)
  | .write a value, answer, s, t =>
    answer = .ok () ∧ t = s.write a.location (BitVec.ofNat 64 (value.toNat % 2 ^ a.width.bits))

theorem performs_device (c : Registers.Call) (s : Store) : Performs c (device c s).1 s (device c s).2 := by
  cases c with
  | read a =>
    refine ⟨congrArg Except.ok (Width.truncate_eq_mod _ _), rfl, ?_⟩
    show (s.read a.location).2.registers = _ ∧ (s.read a.location).2.table = _ ∧
      (s.read a.location).2.writes = _ ∧ _
    by_cases h : a.location = Layout.deviceId ∧ 0 < s.zeroIdReads
    · rw [device, read, if_pos h]
      exact ⟨rfl, rfl, rfl, Or.inr (Nat.sub_add_cancel h.2)⟩
    · rw [device, read, if_neg h]
      exact ⟨rfl, rfl, rfl, Or.inl rfl⟩
  | write a value => exact ⟨rfl, congrArg (s.write a.location) (Width.truncate_eq_mod _ _)⟩

/-- The exchanges of some calls to the store, one after the other. -/
def serve : List Registers.Call → Store → List Registers.Exchange × Store
  | [], s => ([], s)
  | c :: calls, s => (⟨c, (device c s).1⟩ :: (serve calls (device c s).2).1, (serve calls (device c s).2).2)

end Store

namespace SharedChip

/-- An access to a shared chip by one of the engines on it. -/
structure Access where
  engine : Engine
  call : Registers.Call

def access (a : Access) (s : SharedChip) : Registers.Answer a.call × SharedChip :=
  match a.engine with
  | .mdio settings => mdio settings a.call s
  | .spi => spi a.call s

/-- The exchanges of some accesses, one after the other. -/
def serve : List Access → SharedChip → List Registers.Exchange × SharedChip
  | [], s => ([], s)
  | a :: accesses, s =>
    (⟨a.call, (access a s).1⟩ :: (serve accesses (access a s).2).1, (serve accesses (access a s).2).2)

/-- Nobody has given up the lock, the chip holds the store and the faults, and no data register of its
    pseudo PHY is loaded. -/
structure Mirrors (faults : Faults) (s : SharedChip) (t : Store) : Prop where
  free : s.poisoned = false
  store : s.chip.store = t
  faults : s.chip.faults = faults
  settled : s.chip.mdioPort.Settled

section
variable {faults : Faults} {s : SharedChip} {t : Store} {accesses : List Access}

theorem access_of_free (a : Access) (h : s.poisoned = false) :
    access a s =
      ((a.engine.device a.call (s.timeouts, s.chip)).1,
        ⟨false, (a.engine.device a.call (s.timeouts, s.chip)).2.1,
          (a.engine.device a.call (s.timeouts, s.chip)).2.2⟩) := by
  obtain ⟨engine, call⟩ := a
  obtain ⟨poisoned, timeouts, chip⟩ := s
  obtain rfl : poisoned = false := h
  cases engine with
  | mdio settings => rfl
  | spi => rfl

theorem access_mirrors {a : Access} (ha : a.engine.Serves faults a.call) (h : Mirrors faults s t) :
    (access a s).1 = (Store.device a.call t).1 ∧ Mirrors faults (access a s).2 (Store.device a.call t).2 := by
  rw [access_of_free a h.free]
  obtain ⟨-, rfl, rfl, hsettled⟩ := h
  obtain ⟨hanswer, hstore⟩ := Engine.device_eq_store ha (Or.inr (Or.inr hsettled)) s.timeouts
  exact ⟨hanswer, rfl, hstore, Engine.device_faults _ _ _ _, Engine.settled_device _ _ _ hsettled⟩

/-- A run of accesses is a run of the store. -/
theorem serve_mirrors (ha : ∀ a ∈ accesses, a.engine.Serves faults a.call) (h : Mirrors faults s t) :
    (serve accesses s).1 = (Store.serve (accesses.map Access.call) t).1 ∧
      Mirrors faults (serve accesses s).2 (Store.serve (accesses.map Access.call) t).2 := by
  induction accesses generalizing s t with
  | nil => exact ⟨rfl, h⟩
  | cons a accesses ih =>
    obtain ⟨hanswer, hstep⟩ := access_mirrors (ha a List.mem_cons_self) h
    obtain ⟨hrest, hend⟩ := ih (fun b hb => ha b (List.mem_cons_of_mem a hb)) hstep
    refine ⟨?_, hend⟩
    rw [serve, hanswer, hrest]
    rfl

theorem mirrors_of_reachable (h : s.chip.Reachable) (hfree : s.poisoned = false) :
    Mirrors s.chip.faults s s.chip.store :=
  ⟨hfree, rfl, rfl, h.settled⟩

/-- On a shared chip, accesses of any engines that serve them succeed in every order, each as a read or a
    write of the store; other engines would have got the same answers and left the same store. -/
theorem accesses_refine_store (h : s.chip.Reachable) (hfree : s.poisoned = false)
    (ha : ∀ a ∈ accesses, a.engine.Serves s.chip.faults a.call) :
    (∀ before a after, accesses = before ++ a :: after →
      Store.Performs a.call (access a (serve before s).2).1 (serve before s).2.chip.store
        (access a (serve before s).2).2.chip.store) ∧
    ∀ others : List Access, others.map Access.call = accesses.map Access.call →
      (∀ a ∈ others, a.engine.Serves s.chip.faults a.call) →
      (serve others s).1 = (serve accesses s).1 ∧
        (serve others s).2.chip.store = (serve accesses s).2.chip.store := by
  have hstart := mirrors_of_reachable h hfree
  constructor
  · rintro before a after rfl
    have hbefore : ∀ b ∈ before, b.engine.Serves s.chip.faults b.call := fun b hb =>
      ha b (List.mem_append_left _ hb)
    have hreached := (serve_mirrors hbefore hstart).2
    obtain ⟨hanswer, hstep⟩ := access_mirrors (ha a (List.mem_append_right _ List.mem_cons_self)) hreached
    rw [hanswer, hreached.store, hstep.store]
    exact Store.performs_device _ _
  · intro others hcalls hothers
    obtain ⟨hexchanges, hend⟩ := serve_mirrors ha hstart
    obtain ⟨hexchanges', hend'⟩ := serve_mirrors hothers hstart
    rw [hcalls] at hexchanges' hend'
    exact ⟨hexchanges'.trans hexchanges.symm, hend'.store.trans hend.store.symm⟩

end

/-- SPI reads what MDIO wrote, cut to the eight bits that were written. -/
theorem spi_reads_mdio_write :
    (access ⟨.spi, .read ⟨Layout.switchMode, .bits16⟩⟩
      (access ⟨.mdio {}, .write ⟨Layout.switchMode, .bits8⟩ 0x1ff⟩ (new .standard)).2).1 = .ok 0xff := by
  have hserves : ∀ a ∈ [Access.mk (.mdio {}) (.write ⟨Layout.switchMode, .bits8⟩ 0x1ff),
      Access.mk .spi (.read ⟨Layout.switchMode, .bits16⟩)],
        a.engine.Serves (new .standard).chip.faults a.call := by
    intro a ha
    rcases List.mem_cons.mp ha with rfl | ha
    · exact ⟨rfl, Or.inl rfl⟩
    · obtain rfl := List.mem_singleton.mp ha
      exact ⟨rfl, by decide⟩
  obtain ⟨hsteps, -⟩ := accesses_refine_store (s := new .standard) (Simulation.reachable_new _) rfl hserves
  obtain ⟨-, hwritten⟩ := hsteps [] _ [_] rfl
  obtain ⟨hread, -⟩ := hsteps [_] _ [] rfl
  have hstore :
      (serve [Access.mk (.mdio {}) (.write ⟨Layout.switchMode, .bits8⟩ 0x1ff)] (new .standard)).2.chip.store =
        _ :=
    hwritten
  rw [hstore] at hread
  exact hread

end SharedChip

end EtherSwitch
