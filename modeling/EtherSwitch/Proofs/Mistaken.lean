import EtherSwitch.Proofs.Applying

/-! Chips that are taken for others, as they are if their id hides for too long. What a chip really is decides
    where its table operations start, and nothing else. If they start where those of the other chip do, then
    the same writes make the same of the table (`Store.table_writeAll_takenFor`); if not, the registers that a
    switch writes to the other chip do not reach the table (`Store.table_writeAll_of_other`). All registers
    that start no table operations hold the same either way (`Store.registers_writeAll_agree`). -/

namespace EtherSwitch

namespace Chip

/-- The chip, if it is one at all, starts table operations where this one does. -/
def SameCommand (real : Option Chip) (chip : Chip) : Prop := real.map tableCommand = some chip.tableCommand

/-- A switch that takes the chip `real` for this one programs the entry. -/
structure Programmed (chip : Chip) (real : Option Chip) (index : UInt16) : Prop where
  command : SameCommand real chip
  first : chip.firstEntry ≤ index.toNat
  last : index < chip.numVlans

section
variable {real chip : Chip}

theorem eq_of_tableCommand_eq (h : real.tableCommand = chip.tableCommand) :
    real.family = chip.family ∧ real.tableWindow = chip.tableWindow := by
  revert h
  cases real <;> cases chip <;> decide

theorem tableCommand_eq_of_mem (h : real.tableCommand ∈ chip.writtenRegisters) :
    real.tableCommand = chip.tableCommand := by
  revert h
  cases real <;> cases chip <;> decide

theorem lt_nine {port : UInt8} (h : port < chip.numPorts) : port.toNat < 9 :=
  Nat.lt_of_lt_of_le (UInt8.lt_iff_toNat_lt.mp h) chip.numPorts_le

/-- No default tag starts table operations, of whatever chip it is. -/
theorem defaultTag_ne_tableCommand {port : UInt8} (h : port.toNat < 9) (chip : Chip) :
    Layout.defaultTag port ≠ chip.tableCommand := by
  have hall : ∀ i < 9, Layout.defaultTag (UInt8.ofNat i) ≠ chip.tableCommand := by cases chip <;> decide
  have hport := hall port.toNat h
  rwa [UInt8.ofNat_toNat] at hport

/-- The ports that this chip does not have keep their default tags. -/
theorem defaultTag_not_written {port : UInt8} (h : port.toNat < 9) (hout : chip.numPorts ≤ port) :
    Layout.defaultTag port ∉ chip.writtenRegisters := by
  have hall : ∀ i < 9, chip.numPorts.toNat ≤ i → Layout.defaultTag (UInt8.ofNat i) ∉ chip.writtenRegisters := by
    cases chip <;> decide
  have hport := hall port.toNat h (UInt8.le_iff_toNat_le.mp hout)
  rwa [UInt8.ofNat_toNat] at hport

end

end Chip

namespace Store

/-- The store as that of another chip. -/
def takenFor (s : Store) (chip : Chip) : Store := { s with chip := some chip }

section
variable {s t : Store} {chip : Chip} {l : Location} {value : BitVec 64} {ws : List RegisterWrite}

theorem react_takenFor (h : Chip.SameCommand s.chip chip) :
    (s.takenFor chip).react l value = (s.react l value).takenFor chip := by
  obtain ⟨real, hreal, hcommand⟩ := Option.map_eq_some_iff.mp h
  obtain ⟨hfamily, hwindow⟩ := Chip.eq_of_tableCommand_eq hcommand
  rw [react, react, hreal]
  simp only [takenFor, hfamily, hwindow]
  cases chip.family with
  | fastEthernet =>
    dsimp only [runCommand]
    split
    · split
      · rfl
      · split <;> rfl
    · rfl
  | gigabit =>
    dsimp only [runWindow]
    split
    · split <;> rfl
    · rfl

theorem table_writeAll_takenFor (h : Chip.SameCommand s.chip chip) :
    (s.writeAll ws).table = ((s.takenFor chip).writeAll ws).table := by
  have hall : (s.takenFor chip).writeAll ws = (s.writeAll ws).takenFor chip := by
    induction ws generalizing s with
    | nil => rfl
    | cons w ws ih =>
      have hwrite : (s.takenFor chip).write w.location w.value =
          (s.write w.location w.value).takenFor chip := by
        rw [write, write]
        exact react_takenFor
          (s := ({ s with writes := s.writes ++ [w] } : Store).set w.location (s.latched w.location w.value)) h
      rw [writeAll_cons, writeAll_cons, hwrite]
      refine ih ?_
      rwa [chip_write]
  rw [hall]
  rfl

theorem table_writeAll_of_other (h : ¬Chip.SameCommand s.chip chip)
    (hws : ∀ w ∈ ws, w.location ∈ chip.writtenRegisters) :
    (s.writeAll ws).table = s.table := by
  refine table_writeAll_of_ne fun w hw real hreal heq => h ?_
  rw [Chip.SameCommand, hreal, Option.map_some, Chip.tableCommand_eq_of_mem (heq ▸ hws w hw)]

/-- What the same writes leave in a register depends on no chip, except where table operations start. -/
theorem registers_writeAll_agree (hl : ∀ chip : Chip, l ≠ chip.tableCommand)
    (hstuck : s.forwardStuck = t.forwardStuck)
    (h : s.registers l = t.registers l) : (s.writeAll ws).registers l = (t.writeAll ws).registers l := by
  induction ws generalizing s t with
  | nil => exact h
  | cons w ws ih =>
    rw [writeAll_cons, writeAll_cons]
    refine ih (by rw [forwardStuck_write, forwardStuck_write, hstuck]) ?_
    by_cases hw : w.location = l
    · rw [hw, registers_write_latched fun chip _ => hl chip, registers_write_latched fun chip _ => hl chip,
        latched, latched, hstuck]
    · rw [registers_write_of_ne (Ne.symm hw), registers_write_of_ne (Ne.symm hw), h]

end

end Store

end EtherSwitch
