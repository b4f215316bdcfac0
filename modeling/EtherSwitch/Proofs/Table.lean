import EtherSwitch.Proofs.Programming

/-! Table operations of the simulated chip. The writes for an entry store its word at its index
    (`Store.table_entryPuts`), and a list of them all of its words (`Store.table_entries`). -/

namespace EtherSwitch
open Script

namespace Layout

theorem commandStart_writeCommand (index : UInt8) : writeCommand index &&& commandStart ≠ 0 :=
  and_ne_zero_of_getLsbD 13 (by simp [writeCommand, commandStart]) rfl

theorem commandWrite_writeCommand (index : UInt8) : writeCommand index &&& commandWrite ≠ 0 :=
  and_ne_zero_of_getLsbD 12 (by simp [writeCommand, commandWrite]) rfl

theorem and_lowByte (x : BitVec 16) : x &&& 0xff = (x.setWidth 8).setWidth 16 := by
  have hmask : ∀ i : Fin 16, (0xff : BitVec 16).getLsbD i = decide (i.val < 8) := by decide
  apply BitVec.eq_of_getLsbD_eq
  intro i hi
  rw [BitVec.getLsbD_and, hmask ⟨i, hi⟩, BitVec.getLsbD_setWidth, BitVec.getLsbD_setWidth]
  simp [hi, Bool.and_comm]

theorem lowByte_writeCommand (index : UInt8) : (writeCommand index).setWidth 8 = index.toBitVec := by
  have hflags : (commandWrite ||| commandStart).setWidth 8 = 0#8 := by decide
  rw [writeCommand, BitVec.or_assoc, BitVec.setWidth_or, hflags, BitVec.or_zero]
  exact BitVec.setWidth_setWidth_of_le _ (by decide) |>.trans (BitVec.setWidth_eq _)

theorem index_writeCommand (index : UInt8) : writeCommand index &&& 0xff = index.toBitVec.setWidth 16 := by
  rw [and_lowByte, lowByte_writeCommand]

end Layout

namespace Store
variable {s : Store} {chip : Chip}

theorem table_write_command (hchip : s.chip = some chip) (hfamily : chip.family = .fastEthernet)
    (index : UInt8) :
    (s.write Layout.tableAccess ((Layout.writeCommand index).setWidth 64)).table =
      (s.setEntry index.toUInt16 ((s.registers Layout.tableEntry).setWidth 32)).table := by
  have hvalue : ((Layout.writeCommand index).setWidth 64).setWidth 16 = Layout.writeCommand index :=
    narrow_widen (by decide) _
  have hreact : ∀ t : Store, t.chip = some chip →
      (t.react Layout.tableAccess ((Layout.writeCommand index).setWidth 64)).table =
        (t.setEntry index.toUInt16 ((t.registers Layout.tableEntry).setWidth 32)).table := by
    intro t ht
    rw [react, ht]
    simp only [hfamily, if_true, runCommand, hvalue, if_neg (Layout.commandStart_writeCommand index),
      if_neg (Layout.commandWrite_writeCommand index), Layout.index_writeCommand]
    rfl
  have hlatched : s.latched Layout.tableAccess ((Layout.writeCommand index).setWidth 64) =
      (Layout.writeCommand index).setWidth 64 :=
    if_neg fun h => absurd h.1 (by decide)
  rw [write, hlatched]
  rw [hreact _ (by exact hchip), registers_set_of_ne _ _ (by decide)]
  rfl

/-- The start of a gigabit chip's window stores the entry register at the index in the index register. -/
theorem table_write_window (hchip : s.chip = some chip) (hfamily : chip.family = .gigabit) :
    (s.write chip.tableWindow.access (Layout.windowStart.setWidth 64)).table =
      (s.setEntry (UInt16.ofBitVec ((s.registers chip.tableWindow.index).setWidth 16))
        ((s.registers chip.tableWindow.entry).setWidth 32)).table := by
  have hreact : ∀ t : Store, t.chip = some chip →
      (t.react chip.tableWindow.access (Layout.windowStart.setWidth 64)).table =
        (t.setEntry (UInt16.ofBitVec ((t.registers chip.tableWindow.index).setWidth 16))
          ((t.registers chip.tableWindow.entry).setWidth 32)).table := by
    intro t ht
    have hstart : Layout.windowStart.setWidth 64 &&& Layout.windowStart.setWidth 64 ≠ (0 : BitVec 64) := by
      decide
    rw [react, ht]
    simp only [hfamily, if_true, runWindow, if_neg hstart]
    rfl
  have hlatched : s.latched chip.tableWindow.access (Layout.windowStart.setWidth 64) =
      Layout.windowStart.setWidth 64 :=
    if_neg fun h => absurd h.1 (by cases chip <;> decide)
  rw [write, hlatched]
  rw [hreact _ (by exact hchip), registers_set_of_ne _ _ (by cases chip <;> decide),
    registers_set_of_ne _ _ (by cases chip <;> decide)]
  rfl

theorem table_entryPuts (hchip : s.chip = some chip) (hstuck : s.forwardStuck = false) {e : UInt16 × BitVec 32}
    (he : e.1.toNat < 256) :
    (s.writeAll ((chip.entryPuts e).map Put.taken)).table = (s.setEntry e.1 e.2).table := by
  have hcommand : ∀ {t : Store} {l : Location}, t.chip = some chip → l ≠ chip.tableCommand →
      ∀ chip', t.chip = some chip' → l ≠ chip'.tableCommand := by
    intro t l ht hl chip' hchip'
    rwa [← Option.some.inj (ht.symm.trans hchip')]
  obtain ⟨index, entry⟩ := e
  cases hfamily : chip.family with
  | fastEthernet =>
    have hentry : ∀ chip', s.chip = some chip' → Layout.tableEntry ≠ chip'.tableCommand :=
      hcommand hchip (by cases chip <;> decide)
    have hindex : index.toUInt8.toUInt16 = index := by
      apply UInt16.toNat_inj.mp
      rw [UInt8.toNat_toUInt16, UInt16.toNat_toUInt8]
      exact Nat.mod_eq_of_lt he
    simp only [Chip.entryPuts, hfamily, List.map_cons, List.map_nil, Put.taken_bits32, Put.taken_bits16]
    show ((s.write _ _).write Layout.tableAccess _).table = _
    rw [table_write_command ((chip_write _ _ _).trans hchip) hfamily,
      registers_write_self hentry hstuck, hindex, narrow_widen (by decide)]
    show (fun i => if i = index then some entry else (s.write _ _).table i) = _
    rw [table_write_of_ne hentry]
    rfl
  | gigabit =>
    have hindex : ∀ chip', s.chip = some chip' → chip.tableWindow.index ≠ chip'.tableCommand :=
      hcommand hchip (by cases chip <;> decide)
    have hentry : ∀ chip', (s.write chip.tableWindow.index (index.toBitVec.setWidth 64)).chip = some chip' →
        chip.tableWindow.entry ≠ chip'.tableCommand :=
      hcommand ((chip_write _ _ _).trans hchip) (by cases chip <;> decide)
    have hne : chip.tableWindow.index ≠ chip.tableWindow.entry := by cases chip <;> decide
    simp only [Chip.entryPuts, hfamily, List.map_cons, List.map_nil, Put.taken_bits32,
      Put.taken_bits16, Put.taken_bits8]
    show (((s.write _ _).write _ _).write chip.tableWindow.access _).table = _
    rw [table_write_window (by rw [chip_write, chip_write, hchip]) hfamily, registers_write_of_ne hne,
      registers_write_self hindex hstuck, registers_write_self hentry ((forwardStuck_write _ _ _).trans hstuck),
      narrow_widen (by decide), narrow_widen (by decide)]
    show (fun i => if i = index then some entry else ((s.write _ _).write _ _).table i) = _
    rw [table_write_of_ne hentry, table_write_of_ne hindex]
    rfl

section
variable (hchip : s.chip = some chip) (hstuck : s.forwardStuck = false) {entries : List (UInt16 × BitVec 32)}
  (hlow : ∀ e ∈ entries, e.1.toNat < 256) {index : UInt16}
include hchip hstuck hlow

theorem table_entries_of_ne (h : ∀ e ∈ entries, e.1 ≠ index) :
    (s.writeAll ((entries.flatMap chip.entryPuts).map Put.taken)).table index = s.table index := by
  induction entries generalizing s with
  | nil => rfl
  | cons e entries ih =>
    rw [List.flatMap_cons, List.map_append, writeAll_append,
      ih (by rwa [chip_writeAll]) (by rwa [forwardStuck_writeAll])
        (fun e' he' => hlow e' (List.mem_cons_of_mem e he'))
        fun e' he' => h e' (List.mem_cons_of_mem e he'),
      table_entryPuts hchip hstuck (hlow e List.mem_cons_self)]
    exact table_setEntry_of_ne _ _ (Ne.symm (h e List.mem_cons_self))

/-- An entry that was programmed holds its word, if all the words for it agree. -/
theorem table_entries {word : BitVec 32} (h : ∀ e ∈ entries, e.1 = index → e.2 = word)
    (hm : (∃ e ∈ entries, e.1 = index) ∨ s.table index = some word) :
    (s.writeAll ((entries.flatMap chip.entryPuts).map Put.taken)).table index = some word := by
  induction entries generalizing s with
  | nil =>
    rcases hm with ⟨e, he, -⟩ | hm
    · cases he
    · exact hm
  | cons e entries ih =>
    rw [List.flatMap_cons, List.map_append, writeAll_append]
    refine ih (by rwa [chip_writeAll]) (by rwa [forwardStuck_writeAll])
      (fun e' he' => hlow e' (List.mem_cons_of_mem e he'))
      (fun e' he' => h e' (List.mem_cons_of_mem e he')) ?_
    rw [table_entryPuts hchip hstuck (hlow e List.mem_cons_self)]
    by_cases he : e.1 = index
    · refine Or.inr ?_
      rw [← he, table_setEntry_self, h e List.mem_cons_self he]
    · rcases hm with ⟨e', he', hi⟩ | hm
      · rcases List.mem_cons.mp he' with rfl | he'
        · exact absurd hi he
        · exact Or.inl ⟨e', he', hi⟩
      · exact Or.inr ((table_setEntry_of_ne _ _ (Ne.symm he)).trans hm)

end

end Store

end EtherSwitch
