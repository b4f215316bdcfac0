import EtherSwitch.Proofs.Layout
import EtherSwitch.Proofs.Scripts
import EtherSwitch.Simulation.Store

/-! The store as a device, and what lists of writes make of it. A register holds the last value written to
    it (`registers_writeAll`), but for the one that starts table operations; the others do not reach the
    table (`table_writeAll_of_ne`). -/

namespace EtherSwitch

/-- What the register is given. -/
def Script.Put.taken (p : Script.Put) : RegisterWrite := ⟨p.address.location, p.address.width.truncate p.value⟩

section
variable (l : Location)

theorem Width.truncate_setWidth (w : Width) {n : Nat} (h : n ≤ w.bits) (value : BitVec n) :
    w.truncate (value.setWidth 64) = value.setWidth 64 := by
  apply BitVec.eq_of_getLsbD_eq
  intro i _
  rw [Width.getLsbD_truncate, BitVec.getLsbD_setWidth]
  by_cases hi : i < w.bits
  · simp [hi]
  · simp [BitVec.getLsbD_of_ge value i (by omega)]

/-- What is read narrower than the access is what the register holds. -/
theorem Width.setWidth_truncate (w : Width) {n : Nat} (h : n ≤ w.bits) (value : BitVec 64) :
    (w.truncate value).setWidth n = value.setWidth n := by
  apply BitVec.eq_of_getLsbD_eq
  intro i hi
  simp [Width.getLsbD_truncate, hi, show i < w.bits by omega]

@[simp] theorem Script.Put.taken_bits8 (value : BitVec 8) : (bits8 l value).taken = ⟨l, value.setWidth 64⟩ := by
  rw [taken, bits8, Width.truncate_setWidth .bits8 (by decide)]

@[simp] theorem Script.Put.taken_bits16 (value : BitVec 16) :
    (bits16 l value).taken = ⟨l, value.setWidth 64⟩ := by
  rw [taken, bits16, Width.truncate_setWidth .bits16 (by decide)]

@[simp] theorem Script.Put.taken_bits32 (value : BitVec 32) :
    (bits32 l value).taken = ⟨l, value.setWidth 64⟩ := by
  rw [taken, bits32, Width.truncate_setWidth .bits32 (by decide)]

end

namespace Store

/-- Access to the registers of a store. -/
def device : Device Registers Store := fun
  | .read a, s => (.ok (a.width.truncate (s.read a.location).1), (s.read a.location).2)
  | .write a value, s => (.ok (), s.write a.location (a.width.truncate value))

/-- The store after some writes, oldest first. -/
def writeAll (s : Store) (ws : List RegisterWrite) : Store := ws.foldl (fun s w => s.write w.location w.value) s

theorem writeAll_cons (s : Store) (w : RegisterWrite) (ws : List RegisterWrite) :
    s.writeAll (w :: ws) = (s.write w.location w.value).writeAll ws := rfl

theorem writeAll_append (s : Store) (ws more : List RegisterWrite) :
    s.writeAll (ws ++ more) = (s.writeAll ws).writeAll more := List.foldl_append

/-! ### One access -/

section
variable {s : Store} {l l' : Location} {value : BitVec 64}

/-- Only a write that starts a table operation has an effect beyond its register, and that is on the table
    and, again, on the register. -/
theorem react_cases (s : Store) (l : Location) (value : BitVec 64) :
    s.react l value = s ∨
      ∃ chip v table, s.chip = some chip ∧ l = chip.tableCommand ∧
        s.react l value = { s.set l v with table } := by
  unfold react
  split
  · exact Or.inl rfl
  case h_2 chip hchip =>
    split
    case h_1 hfamily =>
      split
      case isTrue hl =>
        rw [runCommand]
        by_cases hstart : value.setWidth 16 &&& Layout.commandStart = 0
        · exact Or.inl (if_pos hstart)
        · have hcommand : l = chip.tableCommand := by rw [Chip.tableCommand, hfamily, hl]
          simp only [if_neg hstart]
          by_cases hwrite : value.setWidth 16 &&& Layout.commandWrite = 0
          · rw [if_pos hwrite, ← hl]
            exact Or.inr ⟨chip, _, _, hchip, hcommand, rfl⟩
          · rw [if_neg hwrite, ← hl]
            exact Or.inr ⟨chip, _, _, hchip, hcommand, rfl⟩
      · exact Or.inl rfl
    case h_2 hfamily =>
      split
      case isTrue hl =>
        rw [runWindow]
        by_cases hstart : value &&& Layout.windowStart.setWidth 64 = 0
        · exact Or.inl (if_pos hstart)
        · have hcommand : l = chip.tableCommand := by rw [Chip.tableCommand, hfamily, hl]
          rw [if_neg hstart, ← hl]
          exact Or.inr ⟨chip, _, _, hchip, hcommand, rfl⟩
      · exact Or.inl rfl

/-- Once the id shows, a read tells what the register holds and changes nothing. -/
theorem read_of_shown (h : s.zeroIdReads = 0) (l : Location) : s.read l = (s.registers l, s) :=
  if_neg fun hid => absurd hid.2 (h ▸ Nat.lt_irrefl 0)

theorem write_of_ne (h : ∀ chip, s.chip = some chip → l ≠ chip.tableCommand) :
    s.write l value = { s.set l (s.latched l value) with writes := s.writes ++ [⟨l, value⟩] } := by
  rcases react_cases (({ s with writes := s.writes ++ [⟨l, value⟩] } : Store).set l (s.latched l value)) l
    (s.latched l value) with hr | ⟨chip, _, _, hchip, hl, -⟩
  · exact hr
  · exact absurd hl (h chip hchip)

/-- What no write changes. -/
theorem write_keeps (s : Store) (l : Location) (value : BitVec 64) :
    (s.write l value).chip = s.chip ∧ (s.write l value).forwardStuck = s.forwardStuck ∧
      (s.write l value).zeroIdReads = s.zeroIdReads ∧ (s.write l value).writes = s.writes ++ [⟨l, value⟩] := by
  rcases react_cases (({ s with writes := s.writes ++ [⟨l, value⟩] } : Store).set l (s.latched l value)) l
    (s.latched l value) with hr | ⟨_, _, _, -, -, hr⟩
  · rw [write, hr]
    exact ⟨rfl, rfl, rfl, rfl⟩
  · rw [write, hr]
    exact ⟨rfl, rfl, rfl, rfl⟩

@[simp] theorem chip_write (s : Store) (l : Location) (value : BitVec 64) : (s.write l value).chip = s.chip :=
  (write_keeps s l value).1

@[simp] theorem forwardStuck_write (s : Store) (l : Location) (value : BitVec 64) :
    (s.write l value).forwardStuck = s.forwardStuck :=
  (write_keeps s l value).2.1

@[simp] theorem zeroIdReads_write (s : Store) (l : Location) (value : BitVec 64) :
    (s.write l value).zeroIdReads = s.zeroIdReads :=
  (write_keeps s l value).2.2.1

theorem registers_write_of_ne (h : l' ≠ l) : (s.write l value).registers l' = s.registers l' := by
  have hset : ∀ (t : Store) (v : BitVec 64), (t.set l v).registers l' = t.registers l' := fun t v =>
    t.registers_set_of_ne v h
  rcases react_cases (({ s with writes := s.writes ++ [⟨l, value⟩] } : Store).set l (s.latched l value)) l
    (s.latched l value) with hr | ⟨_, _, _, -, -, hr⟩
  · rw [write, hr, hset]
  · rw [write, hr]
    exact (hset _ _).trans (hset _ _)

theorem latched_of_forwards (h : s.forwardStuck = false) : s.latched l value = value := by simp [latched, h]

theorem latched_of_ne (s : Store) (h : l ≠ Layout.switchMode) (value : BitVec 64) : s.latched l value = value :=
  if_neg fun hmode => h hmode.1

@[simp] theorem latched_write (s : Store) (l l' : Location) (value value' : BitVec 64) :
    (s.write l' value').latched l value = s.latched l value := by
  rw [latched, latched, forwardStuck_write]

theorem registers_write_latched (h : ∀ chip, s.chip = some chip → l ≠ chip.tableCommand) :
    (s.write l value).registers l = s.latched l value := by
  rw [write_of_ne h]
  exact s.registers_set_self l _

theorem registers_write_self (h : ∀ chip, s.chip = some chip → l ≠ chip.tableCommand)
    (hstuck : s.forwardStuck = false) :
    (s.write l value).registers l = value :=
  (registers_write_latched h).trans (latched_of_forwards hstuck)

theorem table_write_of_ne (h : ∀ chip, s.chip = some chip → l ≠ chip.tableCommand) :
    (s.write l value).table = s.table := by
  rw [write_of_ne h]
  rfl

/-- Whatever chip it is, the registers of its modes start no table operation. -/
theorem mode_ne_command (s : Store) (hl : l ∈ Layout.modeRegisters) :
    ∀ chip, s.chip = some chip → l ≠ chip.tableCommand := by
  rintro chip - rfl
  exact chip.tableCommand_not_mem hl

theorem read_of_ne (h : l ≠ Layout.deviceId) : s.read l = (s.registers l, s) := if_neg fun hid => h hid.1

end

/-- The store `t` is `s` after some reads, which change nothing but how often the id still gives zero. -/
def OnlyRead (s t : Store) : Prop := ∃ k ≤ s.zeroIdReads, t = { s with zeroIdReads := k }

section
variable {s t u : Store}

theorem onlyRead_refl (s : Store) : s.OnlyRead s := ⟨s.zeroIdReads, Nat.le_refl _, rfl⟩

theorem OnlyRead.read (h : s.OnlyRead t) (l : Location) : s.OnlyRead (t.read l).2 := by
  obtain ⟨k, hk, rfl⟩ := h
  rw [Store.read]
  split
  · exact ⟨k - 1, Nat.le_trans (Nat.sub_le k 1) hk, rfl⟩
  · exact ⟨k, hk, rfl⟩

theorem OnlyRead.trans (h : s.OnlyRead t) (h' : t.OnlyRead u) : s.OnlyRead u := by
  obtain ⟨k, hk, rfl⟩ := h
  obtain ⟨j, hj, rfl⟩ := h'
  exact ⟨j, Nat.le_trans hj hk, rfl⟩

theorem OnlyRead.eq_of_shown (h : s.OnlyRead t) (hs : s.zeroIdReads = 0) : t = s := by
  obtain ⟨k, hk, rfl⟩ := h
  rw [hs] at hk
  rw [Nat.le_zero.mp hk, ← hs]

end

/-! ### Lists of writes -/

section
variable {ws : List RegisterWrite} {l : Location} {value : BitVec 64}

@[simp] theorem chip_writeAll (s : Store) (ws : List RegisterWrite) : (s.writeAll ws).chip = s.chip := by
  induction ws generalizing s with
  | nil => rfl
  | cons w ws ih => exact (ih _).trans (chip_write _ _ _)

@[simp] theorem forwardStuck_writeAll (s : Store) (ws : List RegisterWrite) :
    (s.writeAll ws).forwardStuck = s.forwardStuck := by
  induction ws generalizing s with
  | nil => rfl
  | cons w ws ih => exact (ih _).trans (forwardStuck_write _ _ _)

@[simp] theorem zeroIdReads_writeAll (s : Store) (ws : List RegisterWrite) :
    (s.writeAll ws).zeroIdReads = s.zeroIdReads := by
  induction ws generalizing s with
  | nil => rfl
  | cons w ws ih => exact (ih _).trans (zeroIdReads_write _ _ _)

theorem writes_writeAll (s : Store) (ws : List RegisterWrite) : (s.writeAll ws).writes = s.writes ++ ws := by
  induction ws generalizing s with
  | nil => exact (List.append_nil _).symm
  | cons w ws ih =>
    rw [writeAll_cons, ih, (write_keeps s w.location w.value).2.2.2, List.append_assoc, List.singleton_append]

theorem registers_writeAll_of_ne (s : Store) (h : ∀ w ∈ ws, l ≠ w.location) :
    (s.writeAll ws).registers l = s.registers l := by
  induction ws generalizing s with
  | nil => rfl
  | cons w ws ih =>
    exact (ih _ fun v hv => h v (List.mem_cons_of_mem w hv)).trans
      (registers_write_of_ne (h w List.mem_cons_self))

theorem registers_writeAll_outside (s : Store) {ls : List Location} (h : ∀ w ∈ ws, w.location ∈ ls)
    (hl : l ∉ ls) :
    (s.writeAll ws).registers l = s.registers l :=
  registers_writeAll_of_ne s fun w hw heq => hl (heq ▸ h w hw)

/-- A register holds what was written to it, if all the writes to it agree. -/
theorem registers_writeAll {s : Store} (hl : ∀ chip, s.chip = some chip → l ≠ chip.tableCommand)
    (hstuck : s.forwardStuck = false) (h : ∀ w ∈ ws, w.location = l → w.value = value)
    (hm : (∃ w ∈ ws, w.location = l) ∨ s.registers l = value) : (s.writeAll ws).registers l = value := by
  induction ws generalizing s with
  | nil =>
    rcases hm with ⟨w, hw, -⟩ | hm
    · cases hw
    · exact hm
  | cons w ws ih =>
    have hcons : ∀ v ∈ ws, v.location = l → v.value = value := fun v hv => h v (List.mem_cons_of_mem w hv)
    rw [writeAll_cons]
    refine ih (by rwa [chip_write]) (by rwa [forwardStuck_write]) hcons ?_
    by_cases hw : w.location = l
    · refine Or.inr ?_
      rw [hw, registers_write_self hl hstuck]
      exact h w List.mem_cons_self hw
    · rcases hm with ⟨v, hv, hvl⟩ | hm
      · rcases List.mem_cons.mp hv with rfl | hv
        · exact absurd hvl hw
        · exact Or.inl ⟨v, hv, hvl⟩
      · exact Or.inr ((registers_write_of_ne (Ne.symm hw)).trans hm)

/-- Registers that are written once each hold what was written, if it stays. -/
theorem registers_writeAll_of_nodup {s : Store} {w : RegisterWrite} (hw : w ∈ ws)
    (hl : ∀ chip, s.chip = some chip → w.location ≠ chip.tableCommand)
    (hlatched : s.latched w.location w.value = w.value)
    (h : (ws.map RegisterWrite.location).Nodup) : (s.writeAll ws).registers w.location = w.value := by
  induction ws generalizing s with
  | nil => cases hw
  | cons v ws ih =>
    obtain ⟨hv, hws⟩ := List.nodup_cons.mp h
    rw [writeAll_cons]
    rcases List.mem_cons.mp hw with rfl | hw
    · have hrest : ∀ u ∈ ws, w.location ≠ u.location := fun u hu heq =>
        hv (heq.symm ▸ List.mem_map_of_mem hu)
      rw [registers_writeAll_of_ne _ hrest]
      exact (registers_write_latched hl).trans hlatched
    · exact ih hw (by rwa [chip_write]) (by rwa [latched_write]) hws

theorem location_zeros {ls : List Location} {w : RegisterWrite} (hw : w ∈ ls.map (RegisterWrite.mk · 0)) :
    w.location ∈ ls := by
  obtain ⟨l, hl, rfl⟩ := List.mem_map.mp hw
  exact hl

theorem registers_zeros_of_not_mem (s : Store) {ls : List Location} (hl : l ∉ ls) :
    (s.writeAll (ls.map (RegisterWrite.mk · 0))).registers l = s.registers l :=
  registers_writeAll_outside s (fun _ hw => location_zeros hw) hl

theorem table_writeAll_of_ne {s : Store}
    (h : ∀ w ∈ ws, ∀ chip, s.chip = some chip → w.location ≠ chip.tableCommand) :
    (s.writeAll ws).table = s.table := by
  induction ws generalizing s with
  | nil => rfl
  | cons w ws ih =>
    refine (ih fun v hv => ?_).trans (table_write_of_ne (h w List.mem_cons_self))
    rw [chip_write]
    exact h v (List.mem_cons_of_mem w hv)

end

/-! ### Fault-free stores -/

section
variable {s : Store} {chip : Chip}

/-- A fault-free store of the chip. -/
structure Healthy (chip : Chip) (s : Store) : Prop where
  chip : s.chip = some chip
  forwards : s.forwardStuck = false

theorem Healthy.writeAll (h : s.Healthy chip) (ws : List RegisterWrite) : (s.writeAll ws).Healthy chip :=
  ⟨(chip_writeAll s ws).trans h.chip, (forwardStuck_writeAll s ws).trans h.forwards⟩

theorem Healthy.ne_command (h : s.Healthy chip) {l : Location} (hl : l ∉ chip.tableRegisters) :
    ∀ chip', s.chip = some chip' → l ≠ chip'.tableCommand := by
  rintro chip' hchip' rfl
  obtain rfl := Option.some.inj (h.chip.symm.trans hchip')
  exact hl chip.tableCommand_mem

theorem Healthy.table_writeAll (h : s.Healthy chip) {ws : List RegisterWrite}
    (hws : ∀ w ∈ ws, w.location ∉ chip.tableRegisters) : (s.writeAll ws).table = s.table :=
  table_writeAll_of_ne fun w hw => h.ne_command (hws w hw)

theorem Healthy.registers_zeros (h : s.Healthy chip) {ls : List Location} {l : Location} (hl : l ∈ ls)
    (hplain : l ∉ chip.tableRegisters) : (s.writeAll (ls.map (RegisterWrite.mk · 0))).registers l = 0 := by
  refine registers_writeAll (h.ne_command hplain) h.forwards ?_
    (Or.inl ⟨⟨l, 0⟩, List.mem_map.mpr ⟨l, hl, rfl⟩, rfl⟩)
  intro w hw _
  obtain ⟨l', -, rfl⟩ := List.mem_map.mp hw
  rfl

end

/-! ### Scripts on a store -/

section
variable (s : Store)

theorem runOn_read8 (l : Location) :
    Script.runOn device (Script.read8 l) s = (.ok ((s.read l).1.setWidth 8), (s.read l).2) := by
  rw [← Width.setWidth_truncate .bits8 (by decide)]
  rfl

theorem runOn_read16 (l : Location) :
    Script.runOn device (Script.read16 l) s = (.ok ((s.read l).1.setWidth 16), (s.read l).2) := by
  rw [← Width.setWidth_truncate .bits16 (by decide)]
  rfl

end

/-- From store `s` the script succeeds with `a` and makes the writes `ws`, and no store on the way is
    anything but `s` after some first ones of them. -/
structure Does {α : Type} (p : Script α) (s : Store) (a : α) (ws : List RegisterWrite) : Prop where
  run : Script.runOn device p s = (.ok a, s.writeAll ws)
  passes : ∀ t, p.run.Passes device s t → ∃ before, before <+: ws ∧ t = s.writeAll before

section
variable {α β : Type} {s : Store}

theorem does_pure (a : α) : Does (pure a) s a [] := ⟨rfl, fun _ h => ⟨[], List.nil_prefix, h⟩⟩

theorem Does.bind {p : Script α} {f : α → Script β} {a : α} {b : β} {ws more : List RegisterWrite}
    (hp : Does p s a ws) (hf : Does (f a) (s.writeAll ws) b more) : Does (p >>= f) s b (ws ++ more) where
  run := by rw [Script.runOn_bind_ok hp.run, hf.run, writeAll_append]
  passes t h := by
    rcases (Script.passes_bind hp.run).mp h with h | h
    · obtain ⟨before, hbefore, rfl⟩ := hp.passes t h
      exact ⟨before, hbefore.trans (List.prefix_append _ _), rfl⟩
    · obtain ⟨before, hbefore, rfl⟩ := hf.passes t h
      exact ⟨ws ++ before, (List.prefix_append_right_inj ws).mpr hbefore, (writeAll_append _ _ _).symm⟩

theorem does_read8 {l : Location} (h : l ≠ Layout.deviceId) :
    Does (Script.read8 l) s ((s.registers l).setWidth 8) [] where
  run := by
    rw [runOn_read8, read_of_ne h]
    rfl
  passes t ht := by
    have hstep : (Store.device (.read ⟨l, .bits8⟩) s).2 = s := congrArg Prod.snd (read_of_ne (s := s) h)
    rcases ht with rfl | ht
    · exact ⟨[], List.nil_prefix, rfl⟩
    · exact ⟨[], List.nil_prefix, Eq.trans ht hstep⟩

theorem does_write {p : Script.Put} : Does (Script.write p.address p.value) s () [p.taken] where
  run := rfl
  passes t ht := by
    rcases ht with rfl | ht
    · exact ⟨[], List.nil_prefix, rfl⟩
    · exact ⟨[p.taken], List.prefix_rfl, ht⟩

theorem does_emit (puts : List Script.Put) : Does (Script.emit puts) s () (puts.map Script.Put.taken) := by
  induction puts generalizing s with
  | nil => exact does_pure ()
  | cons p puts ih =>
    rw [Script.emit_cons]
    exact does_write.bind ih

end

end Store

end EtherSwitch
