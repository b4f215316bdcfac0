import EtherSwitch.Proofs.Identity
import EtherSwitch.Proofs.Overwriting

/-! Where a switch writes, however its bus fails. It writes no register but those of its chip, and commands
    the VLAN table only for entries that are programmed: the command that takes an entry is not given unless
    the write of its index went through (`Engine.confines_entry_gigabit`). So the reserved entry of a gigabit
    chip stays what it was (`Switch.session_confined`). -/

namespace EtherSwitch
open Script

/-- Values that a width does not tell apart agree in their low bits. -/
theorem Width.low_of_truncate {w : Width} {k : Nat} (hk : k ≤ w.bits) {x y : BitVec 64}
    (h : w.truncate x = w.truncate y) :
    x.setWidth k = y.setWidth k := by
  apply BitVec.eq_of_getLsbD_eq
  intro i hi
  have hbit := congrArg (fun v => BitVec.getLsbD v i) h
  simp only [getLsbD_truncate, Nat.lt_of_lt_of_le hi hk, decide_true, Bool.and_true] at hbit
  rw [BitVec.getLsbD_setWidth, BitVec.getLsbD_setWidth, hbit]

/-! ### What a chip owns -/

namespace Chip

/-- The registers that are set, but for those of the table. -/
def settingRegisters (chip : Chip) : List Location :=
  Layout.modeRegisters ++ chip.tagRegisters ++ chip.controlRegisters ++
    if chip.hasPortOverride then [Layout.portOverride] else []

/-- The registers that a switch with this chip has to write. -/
def ownRegisters (chip : Chip) : List Location := chip.settingRegisters ++ chip.tableRegisters

/-- The entry of the VLAN table that a table command names. -/
def namedEntry (chip : Chip) (s : Store) (command : BitVec 64) : Nat :=
  match chip.family with
  | .fastEthernet => (command.setWidth 8).toNat
  | .gigabit => ((s.registers chip.tableWindow.index).setWidth 16).toNat

/-- The write concerns a register of the chip's, and a table command names an entry that is programmed. -/
structure Owns (chip : Chip) (s : Store) (w : RegisterWrite) : Prop where
  location : w.location ∈ chip.ownRegisters
  entry : w.location = chip.tableCommand →
    chip.firstEntry ≤ chip.namedEntry s w.value ∧ chip.namedEntry s w.value < chip.numVlans.toNat

/-- The chip owns each of the writes when its turn comes. -/
def OwnsAll (chip : Chip) (s : Store) : List RegisterWrite → Prop
  | [] => True
  | w :: ws => chip.Owns s w ∧ chip.OwnsAll (s.write w.location w.value) ws

/-- The call is a read, or a write that the chip owns whatever the store holds and whatever comes along with the
    bits that the width takes. -/
def Permits (chip : Chip) : Registers.Call → Prop
  | .read _ => True
  | .write a value => ∀ s v, a.width.truncate v = a.width.truncate value → chip.Owns s ⟨a.location, v⟩

section
variable {chip chip' : Chip} {s : Store} {w : RegisterWrite} {ws more : List RegisterWrite}

theorem tableCommand_not_setting (chip : Chip) : chip.tableCommand ∉ chip.settingRegisters := by
  cases chip <;> decide

theorem ownRegisters_plain (chip : Chip) : ∀ l ∈ chip.ownRegisters, l.offset ∉ SpiFrames.reserved := by
  cases chip <;> decide

theorem stagingRegister_fast {chip : Chip} (h : chip.family = .fastEthernet) :
    chip.tableCommand = Layout.tableAccess ∧
    Layout.tableEntry ∈ chip.tableRegisters ∧ Layout.tableEntry ≠ chip.tableCommand := by
  revert h
  cases chip <;> decide

theorem stagingRegisters_gigabit {chip : Chip} (h : chip.family = .gigabit) :
    chip.tableCommand = chip.tableWindow.access ∧
    (chip.tableWindow.index ∈ chip.tableRegisters ∧
      ∀ chip' : Chip, chip.tableWindow.index ≠ chip'.tableCommand) ∧
    chip.tableWindow.entry ∈ chip.tableRegisters ∧ chip.tableWindow.entry ≠ chip.tableCommand ∧
    chip.tableWindow.entry ≠ chip.tableWindow.index := by
  have hindex : ∀ chip' : Chip, chip.tableWindow.index ≠ chip'.tableCommand := fun chip' => by
    cases chip <;> cases chip' <;> decide
  refine ⟨?_, ⟨?_, hindex⟩, ?_⟩ <;> revert h <;> cases chip <;> decide

theorem deviceId_not_own (chip : Chip) : Layout.deviceId ∉ chip.ownRegisters := by cases chip <;> decide

theorem owns_setting (hw : w.location ∈ chip.settingRegisters) : chip.Owns s w :=
  ⟨List.mem_append_left _ hw, fun h => absurd (h ▸ hw) chip.tableCommand_not_setting⟩

theorem permits_setting {c : Registers.Call} (hc : c.address.location ∈ chip.settingRegisters) :
    chip.Permits c := by
  cases c with
  | read a => trivial
  | write a value => exact fun _ _ _ => owns_setting hc

theorem owns_staged {l : Location} {v : BitVec 64} (hl : l ∈ chip.tableRegisters)
    (hne : l ≠ chip.tableCommand) :
    chip.Owns s ⟨l, v⟩ :=
  ⟨List.mem_append_right _ hl, fun heq => absurd heq hne⟩

theorem owns_command {v : BitVec 64} {i : Nat} (hname : chip.namedEntry s v = i)
    (hi : chip.firstEntry ≤ i ∧ i < chip.numVlans.toNat) : chip.Owns s ⟨chip.tableCommand, v⟩ :=
  ⟨List.mem_append_right _ chip.tableCommand_mem, fun _ => hname ▸ hi⟩

theorem ownsAll_append : chip.OwnsAll s (ws ++ more) ↔ chip.OwnsAll s ws ∧
    chip.OwnsAll (s.writeAll ws) more := by
  induction ws generalizing s with
  | nil => exact ⟨fun h => ⟨trivial, h⟩, And.right⟩
  | cons w ws ih => exact (and_congr_right fun _ => ih).trans and_assoc.symm

theorem OwnsAll.before (h : chip.OwnsAll s ws) (hmore : more <+: ws) : chip.OwnsAll s more := by
  obtain ⟨rest, rfl⟩ := hmore
  exact (ownsAll_append.mp h).1

theorem OwnsAll.owns (h : chip.OwnsAll s ws) (hw : more ++ [w] <+: ws) : chip.Owns (s.writeAll more) w :=
  (ownsAll_append.mp (h.before hw)).2.1

theorem OwnsAll.location (h : chip.OwnsAll s ws) (hw : w ∈ ws) : w.location ∈ chip.ownRegisters := by
  obtain ⟨before, after, rfl⟩ := List.append_of_mem hw
  exact (ownsAll_append.mp h).2.1.location

end

/-! ### Chips that pass for each other -/

/-- The chips are the same, or differ only in what VLAN control 4 tells. -/
def Alike (chip chip' : Chip) : Prop := chip = chip' ∨ chip.family = .fastEthernet ∧
    chip'.family = .fastEthernet

section
variable {chip chip' : Chip}

theorem Alike.symm (h : chip.Alike chip') : chip'.Alike chip := h.imp Eq.symm And.symm

theorem Alike.owns_eq (h : chip.Alike chip') : chip.Owns = chip'.Owns := by
  rcases h with rfl | ⟨h, h'⟩
  · rfl
  · have hsame : chip.ownRegisters = chip'.ownRegisters ∧ chip.tableCommand = chip'.tableCommand ∧
        chip.firstEntry = chip'.firstEntry := by
      revert h h'
      cases chip <;> cases chip' <;> decide
    have hnamed : chip.namedEntry = chip'.namedEntry := by
      unfold namedEntry
      rw [h, h']
    funext s w
    refine propext ⟨fun ⟨hl, he⟩ => ⟨?_, ?_⟩, fun ⟨hl, he⟩ => ⟨?_, ?_⟩⟩
    · exact hsame.1 ▸ hl
    · rw [← hsame.2.1, ← hsame.2.2, ← hnamed]
      exact he
    · exact hsame.1 ▸ hl
    · rw [hsame.2.1, hsame.2.2, hnamed]
      exact he

theorem Alike.ownsAll_eq (h : chip.Alike chip') : chip.OwnsAll = chip'.OwnsAll := by
  funext s ws
  induction ws generalizing s with
  | nil => rfl
  | cons w ws ih => rw [OwnsAll, OwnsAll, h.owns_eq, ih]

/-- Whatever VLAN control 4 holds, the id registers name a chip alike. -/
theorem exists_alike {id : BitVec 16} {control : BitVec 8} (h : ofIds? id control = some chip)
    (control' : BitVec 8) :
    ∃ found, ofIds? id control' = some found ∧ found.Alike chip := by
  rcases ofIds?_cases h with ⟨hfamily, hname⟩ | ⟨-, hname⟩
  · exact ⟨_, hname control', Or.inr ⟨family_ofVlanControl4 control', hfamily⟩⟩
  · exact ⟨chip, hname control', Or.inl rfl⟩

end

end Chip

/-! ### Confined writes -/

namespace Store
variable {s t u : Store} {chip chip' : Chip} {l : Location} {value : BitVec 64} {index : UInt16}

theorem runCommand_table_of_ne (s : Store) (h : index.toNat ≠ (value.setWidth 8).toNat) :
    (s.runCommand value).table index = s.table index := by
  have hname : (UInt16.ofBitVec (value.setWidth 16 &&& 0xff)).toNat = (value.setWidth 8).toNat := by
    have hlow : (value.setWidth 16).setWidth 8 = value.setWidth 8 :=
      BitVec.setWidth_setWidth_of_le value (by decide)
    rw [Layout.and_lowByte, hlow]
    exact BitVec.toNat_setWidth_of_le (by decide)
  rw [runCommand]
  by_cases hstart : value.setWidth 16 &&& Layout.commandStart = 0
  · rw [if_pos hstart]
  · rw [if_neg hstart]
    by_cases hwrite : value.setWidth 16 &&& Layout.commandWrite = 0
    · rw [if_pos hwrite]
      rfl
    · rw [if_neg hwrite]
      exact table_setEntry_of_ne s _ fun heq => h ((congrArg UInt16.toNat heq).trans hname)

theorem runWindow_table_of_ne (s : Store) {window : Layout.TableWindow}
    (h : index.toNat ≠ ((s.registers window.index).setWidth 16).toNat) :
    (s.runWindow window value).table index = s.table index := by
  rw [runWindow]
  by_cases hstart : value &&& Layout.windowStart.setWidth 64 = 0
  · rw [if_pos hstart]
  · rw [if_neg hstart]
    exact table_setEntry_of_ne s _ fun heq => h (congrArg UInt16.toNat heq)

/-- A table command changes no entry but the one that it names. -/
theorem table_write_of_unnamed (hchip : s.chip = some chip)
    (h : l = chip.tableCommand → index.toNat ≠ chip.namedEntry s value) :
    (s.write l value).table index = s.table index := by
  by_cases hl : l = chip.tableCommand
  · have hmode : l ≠ Layout.switchMode := fun heq => chip.tableCommand_not_mem (hl ▸ heq ▸ by decide)
    have hindex : chip.tableWindow.index ≠ l := by
      rw [hl]
      cases chip <;> decide
    have hname := h hl
    have hreact : ∀ t : Store, t.chip = some chip →
        t.registers chip.tableWindow.index = s.registers chip.tableWindow.index →
        (t.react l value).table index = t.table index := by
      intro t ht hkept
      rw [react, ht]
      unfold Chip.tableCommand at hl
      unfold Chip.namedEntry at hname
      cases hfamily : chip.family with
      | fastEthernet =>
        simp only [hfamily] at hl hname ⊢
        rw [if_pos hl]
        exact runCommand_table_of_ne t hname
      | gigabit =>
        simp only [hfamily] at hl hname ⊢
        rw [if_pos hl]
        exact runWindow_table_of_ne t (hkept ▸ hname)
    rw [write, latched_of_ne s hmode]
    exact hreact _ hchip (registers_set_of_ne _ _ hindex)
  · have hother : ∀ chip', s.chip = some chip' → l ≠ chip'.tableCommand := fun chip' hchip' heq =>
      hl (heq.trans (congrArg Chip.tableCommand (Option.some.inj (hchip'.symm.trans hchip))))
    rw [table_write_of_ne hother]

/-- Writes that the chip owns reach only the entries that are programmed. -/
theorem table_of_ownsAll (hchip : s.chip = some chip) {ws : List RegisterWrite} (h : chip.OwnsAll s ws)
    (hindex : index.toNat < chip.firstEntry ∨ chip.numVlans ≤ index) :
    (s.writeAll ws).table index = s.table index := by
  induction ws generalizing s with
  | nil => rfl
  | cons w ws ih =>
    refine (ih (by rwa [chip_write]) h.2).trans (table_write_of_unnamed hchip fun hl heq => ?_)
    obtain ⟨hfirst, hlast⟩ := h.1.entry hl
    rw [UInt16.le_iff_toNat_le] at hindex
    omega

/-- From store `s` to store `t` there was nothing but reads and writes that the chip owns. -/
def Confined (chip : Chip) (s t : Store) : Prop := ∃ made, (s.writeAll made).OnlyRead t ∧ chip.OwnsAll s made

theorem confined_refl (chip : Chip) (s : Store) : Confined chip s s := ⟨[], onlyRead_refl s, trivial⟩

theorem Confined.read (h : Confined chip s t) (ht : t.OnlyRead u) : Confined chip s u := by
  obtain ⟨made, hmade, howns⟩ := h
  exact ⟨made, hmade.trans ht, howns⟩

theorem Confined.of_alike (h : Confined chip s t) (halike : chip.Alike chip') : Confined chip' s t := by
  obtain ⟨made, hmade, howns⟩ := h
  exact ⟨made, hmade, halike.ownsAll_eq ▸ howns⟩

section
variable (s : Store) (k : Nat)

theorem runCommand_zeroIdReads (value : BitVec 64) :
    ({ s with zeroIdReads := k } : Store).runCommand value = { s.runCommand value with zeroIdReads := k } := by
  unfold runCommand
  dsimp only
  split
  · rfl
  · split <;> rfl

theorem runWindow_zeroIdReads (window : Layout.TableWindow) (value : BitVec 64) :
    ({ s with zeroIdReads := k } : Store).runWindow window value =
      { s.runWindow window value with zeroIdReads := k } := by
  unfold runWindow
  dsimp only
  split <;> rfl

theorem react_zeroIdReads (l : Location) (value : BitVec 64) :
    ({ s with zeroIdReads := k } : Store).react l value = { s.react l value with zeroIdReads := k } := by
  unfold react
  dsimp only
  split
  · rfl
  · split
    · split
      · exact runCommand_zeroIdReads s k value
      · rfl
    · split
      · exact runWindow_zeroIdReads s k _ value
      · rfl

/-- How often the id still gives zero is no matter of writes. -/
theorem write_zeroIdReads (l : Location) (value : BitVec 64) :
    ({ s with zeroIdReads := k } : Store).write l value = { s.write l value with zeroIdReads := k } :=
  react_zeroIdReads (({ s with writes := s.writes ++ [⟨l, value⟩] } : Store).set l (s.latched l value)) k l _

end

theorem Confined.write (h : Confined chip s t) {w : RegisterWrite} (hw : chip.Owns t w) :
    Confined chip s (t.write w.location w.value) := by
  obtain ⟨made, ⟨k, hk, rfl⟩, howns⟩ := h
  refine ⟨made ++ [w], ⟨k, ?_, ?_⟩, Chip.ownsAll_append.mpr ⟨howns, ⟨hw.location, hw.entry⟩, trivial⟩⟩
  · rwa [zeroIdReads_writeAll] at hk ⊢
  · rw [write_zeroIdReads, writeAll_append]
    rfl

/-- On the way the id registers come to name no chip but one that passes for the other. -/
theorem Confined.identifies (h : Confined chip s t) (hid : s.Identifies chip) :
    t.zeroIdReads ≤ s.zeroIdReads ∧ ∃ found, t.Identifies found ∧ found.Alike chip := by
  obtain ⟨made, ⟨k, hk, rfl⟩, howns⟩ := h
  rw [zeroIdReads_writeAll] at hk
  have hdevice : (s.writeAll made).registers Layout.deviceId = s.registers Layout.deviceId :=
    registers_writeAll_outside s (fun w hw => howns.location hw) chip.deviceId_not_own
  obtain ⟨found, hfound, halike⟩ :=
    Chip.exists_alike hid (((s.writeAll made).registers Layout.vlanControl4).setWidth 8)
  refine ⟨hk, found, ?_, halike⟩
  rw [Identifies, hdevice]
  exact hfound

end Store

/-! ### Accesses on a failing bus -/

namespace Engine
variable {α β : Type} {e : Engine} {chip : Chip} {s : Store} {u : Nat × Faulty IoError Simulation}

/-- A read of the chip reads the store, though the chip may not let it complete. -/
theorem device_read_cases (he : e.Attached) {a : Address} (hplain : Plain (.read a)) (n : Nat)
    (s : Simulation) :
    ((e.device (.read a) (n, s)).1 = (Store.device (.read a) s.store).1 ∨
      ∃ err, (e.device (.read a) (n, s)).1 = .error err) ∧
      (e.device (.read a) (n, s)).2.2.store = (Store.device (.read a) s.store).2 := by
  cases e with
  | mdio settings =>
    obtain ⟨m, u, hu, hstore, -, -⟩ := PseudoPhy.device_read he a n s
    refine ⟨?_, (congrArg (fun r => r.2.2.store) hu).trans hstore⟩
    split at hu
    · exact Or.inr ⟨_, congrArg Prod.fst hu⟩
    · exact Or.inl (congrArg Prod.fst hu)
  | spi =>
    cases hack : s.faults.neverAckSpi with
    | false =>
      obtain ⟨u, hu, hstore, -⟩ := SpiFrames.device_read hplain hack
      exact ⟨Or.inl (congrArg Prod.fst hu), (congrArg (fun r => r.2.2.store) hu).trans hstore⟩
    | true =>
      obtain ⟨u, hu, hstore, -⟩ := SpiFrames.device_read_of_unacknowledged hplain hack
      exact ⟨Or.inr ⟨_, congrArg Prod.fst hu⟩, (congrArg (fun r => r.2.2.store) hu).trans hstore⟩

theorem faulty_read (he : e.Attached) (a : Address) (u : Nat × Faulty IoError Simulation) :
    u.2.device.store.OnlyRead (e.faulty (.read a) u).2.2.device.store := by
  obtain ⟨n, u⟩ := u
  rcases faulty_or_refused e (.read a) n u with ⟨-, hend⟩ | ⟨_, _, -, -, hend | hend⟩
  · rw [hend]
    exact device_read_onlyRead he a n u.device
  · rw [hend]
    exact Store.onlyRead_refl _
  · rw [hend]
    exact device_read_onlyRead he a n u.device

/-- A read goes through as on the store, or it fails. -/
theorem faulty_read_or_cut (he : e.Attached) {a : Address} (hplain : Plain (.read a))
    (u : Nat × Faulty IoError Simulation) :
    ((e.faulty (.read a) u).1 = (Store.device (.read a) u.2.device.store).1 ∧
        (e.faulty (.read a) u).2.2.device.store = (Store.device (.read a) u.2.device.store).2) ∨
      Program.Cut e.faulty Store.device (fun u => u.2.device.store) (.read a) u := by
  obtain ⟨n, u⟩ := u
  obtain ⟨hanswer, hstore⟩ := device_read_cases he hplain n u.device
  rcases faulty_or_refused e (.read a) n u with ⟨hsame, hend⟩ | ⟨refuse, err, hrefuse, hrefused, hend⟩
  · rw [← hsame] at hanswer
    rw [← hend] at hstore
    exact hanswer.imp (fun hok => ⟨hok, hstore⟩) fun ⟨err, herr⟩ => ⟨_, err, rfl, herr, Or.inr hstore⟩
  · exact Or.inr ⟨refuse, err, hrefuse, hrefused, hend.imp_right fun hend => hend.trans hstore⟩

/-- A write to the chip is one to the store, up to what comes along above its width. -/
theorem device_write_low (he : e.Attached) {a : Address} {value : BitVec 64} (hplain : Plain (.write a value))
    (n : Nat) (s : Simulation) : ∃ v, a.width.truncate v = a.width.truncate value ∧
      (e.device (.write a value) (n, s)).2.2.store = s.store.write a.location v := by
  cases e with
  | mdio settings =>
    obtain ⟨m, u, hu, hstore, -, -⟩ := PseudoPhy.device_write_pending he a value n s
    exact ⟨_, PseudoPhy.truncate_ofLimbs_append a.width value _,
      (congrArg (fun r => r.2.2.store) hu).trans hstore⟩
  | spi =>
    obtain ⟨u, hu, hstore, -⟩ := SpiFrames.device_write hplain value (s := s)
    exact ⟨_, a.width.truncate_truncate value, (congrArg (fun r => r.2.2.store) hu).trans hstore⟩

/-- On a failing bus a write that succeeds was made, and one that does not may have been. -/
theorem faulty_write (he : e.Attached) {a : Address} {value : BitVec 64} (hplain : Plain (.write a value))
    (u : Nat × Faulty IoError Simulation) :
    ((∃ err, (e.faulty (.write a value) u).1 = .error err) ∧
      (e.faulty (.write a value) u).2.2.device.store = u.2.device.store) ∨
      ∃ v, a.width.truncate v = a.width.truncate value ∧
        (e.faulty (.write a value) u).2.2.device.store = u.2.device.store.write a.location v := by
  obtain ⟨n, u⟩ := u
  obtain ⟨v, hv, hstore⟩ := device_write_low he hplain n u.device
  rcases faulty_or_refused e (.write a value) n u with ⟨-, hend⟩ | ⟨_, err, hrefuse, hanswer, hend | hend⟩
  · exact Or.inr ⟨v, hv, (congrArg Simulation.store hend).trans hstore⟩
  · obtain rfl := Option.some.inj hrefuse
    exact Or.inl ⟨⟨err, hanswer⟩, hend⟩
  · exact Or.inr ⟨v, hv, hend.trans hstore⟩

/-! ### Confined scripts -/

/-- However the bus fails, the script does to the store nothing but reads and writes that the chip owns. -/
def Confines (e : Engine) (chip : Chip) (s : Store) (p : Script α) : Prop :=
  ∀ u : Nat × Faulty IoError Simulation, s.Confined chip u.2.device.store →
    s.Confined chip (runOn e.faulty p u).2.2.device.store

theorem confined_call (he : e.Attached) {c : Registers.Call} (hc : chip.Permits c)
    (h : s.Confined chip u.2.device.store) :
    s.Confined chip (e.faulty c u).2.2.device.store := by
  cases c with
  | read a => exact h.read (faulty_read he a u)
  | write a value =>
    have hplain : Plain (.write a value) := chip.ownRegisters_plain _ (hc s value rfl).location
    rcases faulty_write he hplain u with ⟨-, hend⟩ | ⟨v, hv, hend⟩
    · rwa [hend]
    · rw [hend]
      exact h.write (hc u.2.device.store v hv)

theorem confined_run (he : e.Attached) {p : Program Registers α} (hp : p.Calls chip.Permits)
    (h : s.Confined chip u.2.device.store) : s.Confined chip (Program.run e.faulty p u).2.2.device.store :=
  Program.run_keeps (K := fun u : Nat × Faulty IoError Simulation => s.Confined chip u.2.device.store)
    (fun _ _ hc hu => confined_call he hc hu) hp h

theorem confines_of_uses (he : e.Attached) {p : Script α} (hp : Script.Uses chip.Permits p) :
    e.Confines chip s p :=
  fun _ h => confined_run he hp.calls h

theorem Confines.bind {p : Script α} {f : α → Script β} (hp : e.Confines chip s p)
    (hf : ∀ a, e.Confines chip s (f a)) :
    e.Confines chip s (p >>= f) := by
  intro u h
  have hfirst := hp u h
  rcases hrun : runOn e.faulty p u with ⟨err | a, t⟩
  · rw [runOn_bind_error hrun]
    rwa [hrun] at hfirst
  · rw [runOn_bind_ok hrun]
    rw [hrun] at hfirst
    exact hf a t hfirst

theorem confines_emit (he : e.Attached) {puts : List Put}
    (h : ∀ p ∈ puts, p.address.location ∈ chip.settingRegisters) :
    e.Confines chip s (emit puts) :=
  confines_of_uses he (uses_emit fun p hp => Chip.permits_setting (h p hp))

/-- The writes after the first one are made only if that one succeeds. -/
theorem confined_emit_cons (he : e.Attached) {p : Put} {puts : List Put}
    (howns : ∀ v, p.address.width.truncate v = p.address.width.truncate p.value →
      chip.Owns u.2.device.store ⟨p.address.location, v⟩)
    (hrest : ∀ (t : Nat × Faulty IoError Simulation) (v : BitVec 64),
      p.address.width.truncate v = p.address.width.truncate p.value →
      t.2.device.store = u.2.device.store.write p.address.location v → s.Confined chip t.2.device.store →
      s.Confined chip (runOn e.faulty (emit puts) t).2.2.device.store)
    (h : s.Confined chip u.2.device.store) :
    s.Confined chip (runOn e.faulty (emit (p :: puts)) u).2.2.device.store := by
  have hplain : Plain (.write p.address p.value) := chip.ownRegisters_plain _ (howns p.value rfl).location
  have hmade := faulty_write he hplain u
  rw [← runOn_write e.faulty] at hmade
  rw [emit_cons]
  rcases hwrite : runOn e.faulty (Script.write p.address p.value) u with ⟨err | _, t⟩
  · rw [runOn_bind_error hwrite]
    rw [hwrite] at hmade
    rcases hmade with ⟨-, hend⟩ | ⟨v, hv, hend⟩
    · rwa [hend]
    · rw [hend]
      exact h.write (howns v hv)
  · rw [runOn_bind_ok hwrite]
    rw [hwrite] at hmade
    rcases hmade with ⟨⟨err, herr⟩, -⟩ | ⟨v, hv, hend⟩
    · cases herr
    · exact hrest t v hv hend (hend ▸ h.write (howns v hv))

section
variable {x : UInt16 × BitVec 32} (hx : chip.firstEntry ≤ x.1.toNat ∧ x.1.toNat < chip.numVlans.toNat)
include hx

/-- The command names the entry itself, in its lowest byte. -/
theorem confines_entry_fast (he : e.Attached) (hfamily : chip.family = .fastEthernet) :
    e.Confines chip s (emit (chip.entryPuts x)) := by
  obtain ⟨haccess, hentry, hentry'⟩ := chip.stagingRegister_fast hfamily
  have hputs : chip.entryPuts x =
      [.bits32 Layout.tableEntry x.2, .bits16 chip.tableCommand (Layout.writeCommand x.1.toUInt8)] := by
    rw [Chip.entryPuts, hfamily, haccess]
  intro u h
  rw [hputs]
  refine confined_emit_cons he (fun _ _ => Chip.owns_staged hentry hentry') (fun t _ _ _ h => ?_) h
  refine confined_emit_cons he (fun v hv => Chip.owns_command ?_ hx) (fun _ _ _ _ h => h) h
  have hlow : v.setWidth 8 = x.1.toUInt8.toBitVec := by
    rw [Width.low_of_truncate (show 8 ≤ Width.bits16.bits by decide) hv, ← Layout.lowByte_writeCommand]
    exact BitVec.setWidth_setWidth_of_le _ (by decide)
  have hsmall : x.1.toNat < 256 := Nat.lt_trans hx.2 (show (16 : UInt16).toNat < 256 by decide)
  unfold Chip.namedEntry
  simp only [hfamily, hlow]
  show x.1.toNat % 256 = x.1.toNat
  exact Nat.mod_eq_of_lt hsmall

/-- The command takes what the index register holds. It is given only after the write of the
    index went through. -/
theorem confines_entry_gigabit (he : e.Attached) (hfamily : chip.family = .gigabit) :
    e.Confines chip s (emit (chip.entryPuts x)) := by
  obtain ⟨haccess, ⟨hindex, hindex'⟩, hentry, hentry', hother⟩ := chip.stagingRegisters_gigabit hfamily
  have hputs :
      chip.entryPuts x = [.bits16 chip.tableWindow.index x.1.toBitVec, .bits32 chip.tableWindow.entry x.2,
      .bits8 chip.tableCommand Layout.windowStart] := by
    rw [Chip.entryPuts, hfamily, haccess]
  intro u h
  rw [hputs]
  refine confined_emit_cons he (fun _ _ => Chip.owns_staged hindex (hindex' chip))
    (fun t v hv (ht : _ = u.2.device.store.write chip.tableWindow.index v) h => ?_) h
  refine confined_emit_cons he (fun _ _ => Chip.owns_staged hentry hentry')
    (fun t' v' _ (ht' : _ = t.2.device.store.write chip.tableWindow.entry v') h => ?_) h
  refine confined_emit_cons he (fun _ _ => Chip.owns_command ?_ hx) (fun _ _ _ _ h => h) h
  have hmode : chip.tableWindow.index ≠ Layout.switchMode := fun heq =>
    (chip.modeRegisters_disjoint Layout.switchMode (by decide)).2.2 (heq ▸ hindex)
  have hheld : t'.2.device.store.registers chip.tableWindow.index = v := by
    rw [ht', Store.registers_write_of_ne hother.symm, ht, Store.write_of_ne fun chip' _ => hindex' chip']
    exact (Store.registers_set_self _ _ _).trans (Store.latched_of_ne _ hmode v)
  unfold Chip.namedEntry
  simp only [hfamily, hheld]
  rw [Width.low_of_truncate (show 16 ≤ Width.bits16.bits by decide) hv]
  exact congrArg BitVec.toNat (narrow_widen (by decide) x.1.toBitVec)

theorem confines_entry (he : e.Attached) : e.Confines chip s (emit (chip.entryPuts x)) := by
  cases hfamily : chip.family with
  | fastEthernet => exact confines_entry_fast hx he hfamily
  | gigabit => exact confines_entry_gigabit hx he hfamily

end

theorem confines_entries (he : e.Attached) {entries : List (UInt16 × BitVec 32)}
    (h : ∀ x ∈ entries, chip.firstEntry ≤ x.1.toNat ∧ x.1.toNat < chip.numVlans.toNat) :
    e.Confines chip s (emit (entries.flatMap chip.entryPuts)) := by
  induction entries with
  | nil => exact fun _ h => h
  | cons x entries ih =>
    rw [List.flatMap_cons, emit_append]
    exact (confines_entry (h x List.mem_cons_self) he).bind fun _ => ih fun y hy =>
      h y (List.mem_cons_of_mem x hy)

theorem confines_reset (he : e.Attached) : e.Confines chip s (chip.family.reset chip) := by
  refine confines_of_uses he (uses_reset (fun c hc => Chip.permits_setting ?_) fun hports c hc =>
    Chip.permits_setting ?_)
  · rcases List.mem_cons.mp hc with hc | hc
    · exact List.mem_append_left _ (List.mem_append_left _ (List.mem_append_left _ (hc ▸ by decide)))
    · exact List.mem_append_left _ (List.mem_append_right _ hc)
  · refine List.mem_append_right _ ?_
    rw [hports, hc]
    exact .head _

theorem confines_applyConfig {c : Config} (hc : c.WellFormed) (he : e.Attached) :
    e.Confines c.chip s (Switch.applyConfig c) := by
  rw [Switch.applyConfig_eq hc]
  refine (confines_of_uses he (uses_read8 trivial)).bind fun mode => ?_
  obtain ⟨before, after, hputs, hother⟩ := hc.puts_split mode
  have hsetting : ∀ p ∈ before ++ after, p.address.location ∈ c.chip.settingRegisters := fun p hp =>
    List.mem_append_left _ (hother p hp)
  rw [hputs, emit_append, emit_append]
  refine Confines.bind (.bind ?_ fun _ => ?_) fun _ => ?_
  · exact confines_emit he fun p hp => hsetting p (List.mem_append_left _ hp)
  · refine confines_entries he fun x hx => ?_
    obtain ⟨hfirst, hlast, -⟩ := hc.mem_tableEntries hx
    exact ⟨hfirst, UInt16.lt_iff_toNat_lt.mp hlast⟩
  · exact confines_emit he fun p hp => hsetting p (List.mem_append_right _ hp)

end Engine

/-! ### Confined operations -/

namespace Switch
variable {e : Engine} {chip : Chip} {s : Store} {u : Nat × Faulty IoError Simulation} {c : Config}

theorem confined_script {α : Type} {f : Config → Script α} (hf : e.Confines chip s (f c))
    (h : s.Confined chip u.2.device.store) :
    s.Confined chip (Program.run e.faulty ((script f).run.run c) u).2.2.device.store := by
  rw [run_script]
  exact hf u h

/-- However the bus fails, an operation that is no raw register write is confined. -/
theorem confined_perform (hc : c.WellFormed) (he : e.Attached) {op : Operation} (hop : op.isRaw = false)
    (h : s.Confined c.chip u.2.device.store) :
    s.Confined c.chip (layer.device e.faulty op (c, u)).2.2.2.device.store := by
  have hchange : ∀ f : Config → Except Error Config,
      s.Confined c.chip (Program.run e.faulty ((change f).run.run c) u).2.2.device.store := fun f => by
    rw [run_change]
    exact h
  have hlook : op.looks = true → s.Confined c.chip (layer.device e.faulty op (c, u)).2.2.2.device.store := by
    intro hlooks
    refine Engine.confined_run he ((calls_of_looks hlooks c).mono ?_) h
    rintro _ ⟨a, rfl⟩
    trivial
  cases op with
  | setVlanEnabled on => exact h
  | setVlanBase base => exact hchange _
  | setPortPvid port vid => exact hchange _
  | setVlanPorts index members => exact hchange _
  | applyConfig => exact confined_script (Engine.confines_applyConfig hc he) h
  | resetSwitch =>
    rw [device_resetSwitch]
    have hclear : c.clear.WellFormed := .initial c.identity
    exact ((Engine.confines_reset he).bind fun _ => Engine.confines_applyConfig hclear he) u h
  | setManaged on =>
    have hmode : ∀ call : Registers.Call, call.address.location = Layout.switchMode →
        c.chip.Permits call := fun call hcall =>
      Chip.permits_setting
        (List.mem_append_left _ (List.mem_append_left _ (List.mem_append_left _ (hcall ▸ by decide))))
    exact confined_script (f := fun _ => EtherSwitch.setManaged on false)
      (Engine.confines_of_uses he (uses_setManaged hmode on)) h
  | writeRegister a value => cases hop
  | config | portPvid port | vlanPorts index | portLink port | portLinks | readRegister a => exact hlook rfl

/-! ### Sessions -/

/-- What a probe finds, if the bus lets it find anything. -/
theorem probe_of_faulty (he : e.Attached) {found : Chip} (hid : u.2.device.store.Identifies found)
    (hzero : u.2.device.store.zeroIdReads ≤ idRetries) {identity : Identity}
    (h : (runOn e.faulty probe u).1 = .ok identity) : identity.chip = found := by
  have hreads : Script.Uses (fun call => ∃ a, call = .read a ∧ Engine.Plain call) probe := by
    have hplain : ∀ l ∈ [Layout.deviceId, Layout.vlanControl4, Layout.coreRevision],
        l.offset ∉ SpiFrames.reserved := by decide
    exact uses_probe fun l hl w => ⟨⟨l, w⟩, rfl, hplain l hl⟩
  have hcall : ∀ (call : Registers.Call) (u : Nat × Faulty IoError Simulation),
      (∃ a, call = .read a ∧ Engine.Plain call) → True →
      ((e.faulty call u).1 = (Store.device call u.2.device.store).1 ∧
        (e.faulty call u).2.2.device.store = (Store.device call u.2.device.store).2 ∧ True) ∨
      Program.Cut e.faulty Store.device (fun u => u.2.device.store) call u := by
    rintro _ u ⟨a, rfl, hplain⟩ -
    exact (Engine.faulty_read_or_cut he hplain u).imp_left fun ⟨hanswer, hend⟩ => ⟨hanswer, hend, trivial⟩
  rcases Program.run_of_cut hcall hreads.calls hreads.prompt trivial with ⟨hanswer, -⟩ | ⟨err, hanswer, -⟩
  · rw [show Program.run Store.device probe.run _ = _ from runOn_probe hid hzero] at hanswer
    obtain rfl := Except.ok.inj (hanswer.symm.trans h)
    rfl
  · cases hanswer.symm.trans h

/-- However the bus fails, bringing a switch up is confined, and what it takes the chip for passes for it. -/
theorem confined_register (he : e.Attached) (hid : s.Identifies chip) (hzero : s.zeroIdReads ≤ idRetries)
    (h : s.Confined chip u.2.device.store) :
    s.Confined chip (runOn e.faulty register u).2.2.device.store ∧
      ∀ c, (runOn e.faulty register u).1 = .ok c → c.WellFormed ∧ c.chip.Alike chip := by
  obtain ⟨hleft, found, hfound, halike⟩ := h.identifies hid
  have hreads : e.Confines chip s probe := Engine.confines_of_uses he (uses_probe fun _ _ _ => trivial)
  have hprobed := hreads u h
  have hname : ∀ identity, (runOn e.faulty probe u).1 = .ok identity → identity.chip = found := fun _ =>
    probe_of_faulty he hfound (Nat.le_trans hleft hzero)
  rw [register]
  rcases hprobe : runOn e.faulty probe u with ⟨err | identity, t⟩
  · rw [runOn_bind_error hprobe]
    rw [hprobe] at hprobed
    exact ⟨hprobed, fun c hc => by cases hc⟩
  · rw [hprobe] at hprobed hname
    obtain rfl := hname identity rfl
    have hreset : e.Confines identity.chip s
        (do identity.chip.family.reset identity.chip; return Config.initial identity) :=
      (Engine.confines_reset he).bind fun _ _ h => h
    rw [runOn_bind_ok hprobe]
    refine ⟨(hreset t (hprobed.of_alike halike.symm)).of_alike halike, fun c hc => ?_⟩
    obtain ⟨_, _, -, hdone⟩ := ok_of_runOn_bind (Prod.ext hc rfl)
    obtain rfl := Except.ok.inj (congrArg Prod.fst hdone)
    exact ⟨.initial identity, halike⟩

/-- A step of a session with a switch. -/
inductive Step where
  | bringUp
  | perform (op : Operation)
  deriving DecidableEq, Repr

/-- Makes a step on the registers, whether it succeeds or not. Without a switch there are no operations; an
    attempt to bring a switch up that fails leaves the one from before, if there was one. -/
def Step.run {σ : Type} (d : Device Registers σ) : Step → Option Config × σ → Option Config × σ
  | .bringUp, (c?, s) =>
    match runOn d register s with
    | (.ok c, s') => (some c, s')
    | (.error _, s') => (c?, s')
  | .perform _, (none, s) => (none, s)
  | .perform op, (some c, s) =>
    match layer.device d op (c, s) with
    | (_, c', s') => (some c', s')

/-- The switch and the registers after some steps, one after the other. -/
def session {σ : Type} (d : Device Registers σ) (steps : List Step) (s : Option Config × σ) :
    Option Config × σ :=
  steps.foldl (fun s step => step.run d s) s

/-- What holds all along a session: the registers are confined, and the switch is one for such a chip. -/
structure Held (chip : Chip) (s : Store) (t : Option Config × Nat × Faulty IoError Simulation) : Prop where
  confined : s.Confined chip t.2.2.device.store
  wellFormed : ∀ c, t.1 = some c → c.WellFormed ∧ c.chip.Alike chip

theorem Held.step (he : e.Attached) (hid : s.Identifies chip) (hzero : s.zeroIdReads ≤ idRetries)
    {t : Option Config × Nat × Faulty IoError Simulation} (ht : Held chip s t) {step : Step}
    (hstep : ∀ op, step = .perform op → op.isRaw = false) : Held chip s (step.run e.faulty t) := by
  obtain ⟨c?, u⟩ := t
  cases step with
  | bringUp =>
    obtain ⟨hconfined, hfound⟩ := confined_register he hid hzero ht.confined
    rw [Step.run]
    rcases hup : runOn e.faulty register u with ⟨err | c, u'⟩
    · rw [hup] at hconfined
      exact ⟨hconfined, ht.wellFormed⟩
    · rw [hup] at hconfined hfound
      exact ⟨hconfined, fun c' hc' => Option.some.inj hc' ▸ hfound c rfl⟩
  | perform op =>
    cases c? with
    | none => exact ht
    | some c =>
      obtain ⟨hc, halike⟩ := ht.wellFormed c rfl
      have hconfined := confined_perform hc he (hstep op rfl) (ht.confined.of_alike halike.symm)
      refine ⟨hconfined.of_alike halike, fun c' hc' => ?_⟩
      obtain rfl : op.after c = c' := (config_eq_after e.faulty c u op).symm.trans (Option.some.inj hc')
      exact ⟨hc.after op, by rwa [Config.chip, identity_after]⟩

theorem held_session (he : e.Attached) (hid : s.Identifies chip) (hzero : s.zeroIdReads ≤ idRetries)
    {steps : List Step} (hsteps : ∀ op, .perform op ∈ steps → op.isRaw = false)
    {t : Option Config × Nat × Faulty IoError Simulation}
    (ht : Held chip s t) : Held chip s (session e.faulty steps t) := by
  induction steps generalizing t with
  | nil => exact ht
  | cons step steps ih =>
    refine ih (fun op hop => hsteps op (List.mem_cons_of_mem step hop)) (ht.step he hid hzero ?_)
    rintro op rfl
    exact hsteps op List.mem_cons_self

/-- However the bus fails and recovers, a session without raw register writes logs no write but to the
    registers of its chip, no table command that names an entry beyond the table, and at no time changes an
    entry that is not to be programmed, such as the reserved one of a gigabit chip. -/
theorem session_confined (he : e.Attached) {s : Simulation} (hchip : s.store.chip = some chip)
    (hid : s.store.Identifies chip) (hzero : s.store.zeroIdReads < 10) {steps : List Step}
    (hsteps : ∀ op, .perform op ∈ steps → op.isRaw = false) (plan : FaultPlan IoError) (n : Nat) :
    ∃ made,
      (s.store.writeAll made).OnlyRead (session e.faulty steps (none, n, .start plan s)).2.2.device.store ∧
      (session e.faulty steps (none, n, .start plan s)).2.2.device.store.writes = s.store.writes ++ made ∧
      (∀ w ∈ made, w.location ∈ chip.ownRegisters) ∧
      (∀ before w, before ++ [w] <+: made → w.location = chip.tableCommand →
        chip.namedEntry (s.store.writeAll before) w.value < 16) ∧
      (∀ before, before <+: made → ∀ index : UInt16, index.toNat < chip.firstEntry ∨ chip.numVlans ≤ index →
        (s.store.writeAll before).table index = s.store.table index) ∧
      (chip.family = .gigabit →
        (session e.faulty steps (none, n, .start plan s)).2.2.device.store.table 0 = s.store.table 0) := by
  have hstart : Held chip s.store (none, n, .start plan s) := ⟨Store.confined_refl _ _, fun c hc => by cases hc⟩
  obtain ⟨made, hread, howns⟩ := (held_session he hid (Nat.le_of_lt_succ hzero) hsteps hstart).confined
  have htable : ∀ before, before <+: made → ∀ index : UInt16, index.toNat < chip.firstEntry ∨
      chip.numVlans ≤ index →
      (s.store.writeAll before).table index = s.store.table index := fun before hbefore index hindex =>
    Store.table_of_ownsAll hchip (howns.before hbefore) hindex
  refine ⟨made, hread, ?_, fun w hw => howns.location hw,
    fun before w hw hl => ((howns.owns hw).entry hl).2, htable, fun hfamily => ?_⟩
  · obtain ⟨k, -, hend⟩ := hread
    rw [hend]
    exact Store.writes_writeAll s.store made
  · obtain ⟨k, -, hend⟩ := hread
    rw [hend]
    refine htable made List.prefix_rfl 0 (Or.inl ?_)
    rw [Chip.firstEntry, hfamily]
    exact Nat.zero_lt_one

/-- A BCM5395 is brought up and configured twice and then reset. -/
def trials : List Step :=
  [.bringUp, .perform (.setVlanEnabled true), .perform (.setVlanPorts 1 [⟨2, false⟩]), .perform .applyConfig,
    .bringUp, .perform .applyConfig, .perform .resetSwitch]

/-- The chip after that, while every seventieth call of the bus fails. -/
def tried : Option Config × Nat × Faulty IoError Simulation :=
  session Engine.spi.faulty trials
    (none, 0, .start (fun i => if i % 70 = 69 then some .injected else none) (.new (.ofChip .bcm5395)))

/-- Each time the bus fails while entries are programmed; entry 1 was cleared in the end. -/
theorem session_confined_tried :
    tried.2.2.device.store.table 1 = some 0 ∧ tried.2.2.device.store.table 0 = none ∧
      ∃ made, tried.2.2.device.store.writes = made ∧ (∀ w ∈ made, w.location ∈ Chip.bcm5395.ownRegisters) ∧
        ∀ before w, before ++ [w] <+: made → w.location = Chip.bcm5395.tableCommand →
          Chip.bcm5395.namedEntry ((Simulation.new (.ofChip .bcm5395)).store.writeAll before) w.value < 16 := by
  have hsteps : ∀ op, .perform op ∈ trials → op.isRaw = false := by simp [trials, Operation.isRaw]
  have hid : (Simulation.new (.ofChip .bcm5395)).store.Identifies .bcm5395 :=
    Model.identifies (m := .ofChip .bcm5395) rfl
  obtain ⟨made, -, hwrites, hlocation, hcommand, -, hreserved⟩ :=
    session_confined (e := .spi) trivial rfl hid (by decide) hsteps
      (fun i => if i % 70 = 69 then some .injected else none) 0
  exact ⟨rfl, hreserved rfl, made, hwrites, hlocation, hcommand⟩

end Switch

end EtherSwitch
