import EtherSwitch.Proofs.History

/-! What later writes leave of earlier ones. A register holds what the last write to it gave it, so that the
    same writes bring stores together that differ only in the registers written
    (`Store.Healthy.registers_writeAll_congr`). Of the writes that program the VLAN table, the first ones
    leave each entry as it was or with a word of its own (`Store.Healthy.table_partway`). -/

namespace EtherSwitch
open Script

/-! ### Registers -/

/-- What a register of the chip holds when it has taken a value: the start bit of a table operation clears. -/
def Chip.kept (chip : Chip) (l : Location) (value : BitVec 64) : BitVec 64 :=
  if l = chip.tableCommand then
    match chip.family with
    | .fastEthernet =>
      if value.setWidth 16 &&& Layout.commandStart = 0 then value
        else value &&& ~~~(Layout.commandStart.setWidth 64)
    | .gigabit =>
      if value &&& Layout.windowStart.setWidth 64 = 0 then value
        else value &&& ~~~(Layout.windowStart.setWidth 64)
  else value

namespace Store

/-- The stores hold the same in all registers and in the VLAN table. -/
structure SameContent (s t : Store) : Prop where
  registers : s.registers = t.registers
  table : s.table = t.table

section
variable {s t : Store} {chip : Chip} {ws : List RegisterWrite} {l : Location}

theorem Healthy.registers_write (hs : s.Healthy chip) (l : Location) (value : BitVec 64) :
    (s.write l value).registers l = chip.kept l value := by
  by_cases hl : l = chip.tableCommand
  · -- The register takes the value first, and what becomes of its start bit then is up to that value alone.
    have hlatched : s.latched l value = value := if_neg fun h => by simp [hs.forwards] at h
    have hreact : ∀ t : Store, t.chip = some chip → t.registers l = value →
        (t.react l value).registers l = chip.kept l value := by
      intro t ht htaken
      rw [react, ht, Chip.kept, if_pos hl]
      rw [Chip.tableCommand] at hl
      cases hfamily : chip.family with
      | fastEthernet =>
        simp only [hfamily] at hl ⊢
        rw [if_pos hl, runCommand]
        split
        · exact htaken
        · exact hl ▸ registers_set_self _ _ _
      | gigabit =>
        simp only [hfamily] at hl ⊢
        rw [if_pos hl, runWindow]
        split
        · exact htaken
        · exact hl ▸ registers_set_self _ _ _
    rw [write, hlatched]
    exact hreact _ hs.chip (registers_set_self _ _ _)
  · rw [Chip.kept, if_neg hl]
    refine registers_write_self (fun chip' hchip' => ?_) hs.forwards
    rwa [← Option.some.inj (hs.chip.symm.trans hchip')]

/-- Two stores agree on a register after the same writes if one of them is to it, or if they agreed before. -/
theorem Healthy.registers_writeAll_congr (hs : s.Healthy chip) (ht : t.Healthy chip)
    (h : (∃ w ∈ ws, w.location = l) ∨ s.registers l = t.registers l) :
    (s.writeAll ws).registers l = (t.writeAll ws).registers l := by
  -- The induction goes over all pairs of stores: from the first write to the register on, the second case
  -- applies.
  induction ws generalizing s t with
  | nil =>
    rcases h with ⟨w, hw, -⟩ | h
    · cases hw
    · exact h
  | cons w ws ih =>
    refine ih (hs.writeAll [w]) (ht.writeAll [w]) ?_
    show _ ∨ (s.write w.location w.value).registers l = (t.write w.location w.value).registers l
    by_cases hw : w.location = l
    · refine Or.inr ?_
      rw [← hw, hs.registers_write, ht.registers_write]
    · rcases h with ⟨v, hv, hvl⟩ | h
      · rcases List.mem_cons.mp hv with rfl | hv
        · exact absurd hvl hw
        · exact Or.inl ⟨v, hv, hvl⟩
      · rw [registers_write_of_ne (Ne.symm hw), registers_write_of_ne (Ne.symm hw)]
        exact Or.inr h

/-- What holds of the value in a register and of all values written to it holds of it afterwards. -/
theorem Healthy.registers_writeAll_keeps (hs : s.Healthy chip) (hl : l ∉ chip.tableRegisters)
    {P : BitVec 64 → Prop} (hfirst : P (s.registers l)) (hws : ∀ w ∈ ws, w.location = l → P w.value) :
    P ((s.writeAll ws).registers l) := by
  induction ws generalizing s with
  | nil => exact hfirst
  | cons w ws ih =>
    refine ih (hs.writeAll [w]) ?_ fun v hv => hws v (List.mem_cons_of_mem w hv)
    show P ((s.write w.location w.value).registers l)
    by_cases hw : w.location = l
    · rw [hw, registers_write_self (hs.ne_command hl) hs.forwards]
      exact hws w List.mem_cons_self hw
    · rwa [registers_write_of_ne (Ne.symm hw)]

end

end Store

/-! ### The VLAN table -/

/-- The writes program some entries of the VLAN table one after the other, and use its registers for nothing
    else. -/
structure Chip.Programs (chip : Chip) (entries : List (UInt16 × BitVec 32))
    (ws : List RegisterWrite) : Prop where
  low : ∀ e ∈ entries, e.1.toNat < 256
  split : ∃ before after, ws = before ++ (entries.flatMap chip.entryPuts).map Put.taken ++ after ∧
    (∀ w ∈ before, w.location ∉ chip.tableRegisters) ∧ ∀ w ∈ after, w.location ∉ chip.tableRegisters

namespace Store
variable {s : Store} {chip : Chip} {ws done : List RegisterWrite} {entries : List (UInt16 × BitVec 32)}

/-- Only the last one of the writes for an entry starts the table operation. -/
theorem taken_entryPuts (chip : Chip) (e : UInt16 × BitVec 32) : ∃ staged start,
    (chip.entryPuts e).map Put.taken = staged ++ [start] ∧ ∀ w ∈ staged, w.location ≠ chip.tableCommand := by
  have hstaged : ∀ l ∈ chip.tableRegisters.dropLast, l ≠ chip.tableCommand := by cases chip <;> decide
  have hlocations : ((chip.entryPuts e).map Put.taken).map RegisterWrite.location = chip.tableRegisters := by
    rw [List.map_map]
    exact locations_entryPuts chip e
  have hne : (chip.entryPuts e).map Put.taken ≠ [] := fun hnil => by
    rw [hnil] at hlocations
    exact List.ne_nil_of_mem chip.tableCommand_mem hlocations.symm
  refine ⟨_, _, (List.dropLast_concat_getLast hne).symm, fun w hw => hstaged _ ?_⟩
  rw [← hlocations, ← List.map_dropLast]
  exact List.mem_map_of_mem hw

/-- Staging a word and an index does not touch the table, whatever was staged before. -/
theorem Healthy.table_of_staged (hs : s.Healthy chip) {e : UInt16 × BitVec 32}
    (hdone : done <+: (chip.entryPuts e).map Put.taken) :
    (s.writeAll done).table = s.table ∨ done = (chip.entryPuts e).map Put.taken := by
  obtain ⟨staged, start, hsplit, hstaged⟩ := taken_entryPuts chip e
  rw [hsplit] at hdone ⊢
  rcases List.prefix_concat_iff.mp hdone with hall | hpart
  · exact Or.inr hall
  · refine Or.inl (table_writeAll_of_ne fun w hw chip' hchip' => ?_)
    rw [← Option.some.inj (hs.chip.symm.trans hchip')]
    exact hstaged w (hpart.subset hw)

/-- Wherever the programming of entries stops, an entry is as it was or holds a word that is for it. -/
theorem Healthy.table_entries_partway (hs : s.Healthy chip) (hlow : ∀ e ∈ entries, e.1.toNat < 256)
    (hdone : done <+: (entries.flatMap chip.entryPuts).map Put.taken) (index : UInt16) :
    (s.writeAll done).table index = s.table index ∨ ∃ e ∈ entries, e.1 = index ∧
      (s.writeAll done).table index = some e.2 := by
  induction entries generalizing s done with
  | nil =>
    rw [List.prefix_nil.mp hdone]
    exact Or.inl rfl
  | cons e entries ih =>
    have hstored := table_entryPuts hs.chip hs.forwards (hlow e List.mem_cons_self)
    have hfirst : (s.writeAll ((chip.entryPuts e).map Put.taken)).table index = s.table index ∨
        (e.1 = index ∧ (s.writeAll ((chip.entryPuts e).map Put.taken)).table index = some e.2) := by
      rw [hstored]
      by_cases he : e.1 = index
      · exact Or.inr ⟨he, he ▸ table_setEntry_self _ _ _⟩
      · exact Or.inl (table_setEntry_of_ne _ _ (Ne.symm he))
    rw [List.flatMap_cons, List.map_append] at hdone
    -- Either the writes stop within those of `e`, of which only the last one counts, or these are all made.
    rcases List.prefix_append_cases hdone with hpart | ⟨rest, rfl, hrest⟩
    · rcases hs.table_of_staged hpart with hkept | rfl
      · exact Or.inl (congrFun hkept index)
      · exact hfirst.imp_right fun ⟨he, hword⟩ => ⟨e, List.mem_cons_self, he, hword⟩
    · rw [writeAll_append]
      rcases ih (hs.writeAll _) (fun e' he' => hlow e' (List.mem_cons_of_mem e he')) hrest with hkept |
        ⟨e', he', hword⟩
      · rw [hkept]
        exact hfirst.imp_right fun ⟨he, hword⟩ => ⟨e, List.mem_cons_self, he, hword⟩
      · exact Or.inr ⟨e', List.mem_cons_of_mem e he', hword⟩

theorem Healthy.table_partway (hs : s.Healthy chip) (hws : chip.Programs entries ws) (hdone : done <+: ws)
    (index : UInt16) :
    (s.writeAll done).table index = s.table index ∨ ∃ e ∈ entries, e.1 = index ∧
      (s.writeAll done).table index = some e.2 := by
  obtain ⟨before, after, rfl, hbefore, hafter⟩ := hws.split
  have hprogrammed : ∀ {part}, part <+: (entries.flatMap chip.entryPuts).map Put.taken →
      (s.writeAll (before ++ part)).table index = s.table index ∨
        ∃ e ∈ entries, e.1 = index ∧ (s.writeAll (before ++ part)).table index = some e.2 := by
    intro part hpart
    rw [writeAll_append, ← hs.table_writeAll hbefore]
    exact (hs.writeAll before).table_entries_partway hws.low hpart index
  rcases List.prefix_append_cases hdone with hearly | ⟨rest, rfl, hrest⟩
  · rcases List.prefix_append_cases hearly with hpart | ⟨part, rfl, hpart⟩
    · exact Or.inl (congrFun (hs.table_writeAll fun w hw => hbefore w (hpart.subset hw)) index)
    · exact hprogrammed hpart
  · rw [writeAll_append, (hs.writeAll _).table_writeAll fun w hw => hafter w (hrest.subset hw)]
    exact hprogrammed List.prefix_rfl

end Store

/-! ### The writes of a configuration -/

theorem withManaged_withManaged (on on' : Bool) (mode : BitVec 8) :
    withManaged on (withManaged on' mode) = withManaged on mode := by
  unfold withManaged
  cases on <;> cases on' <;> ext i hi <;> cases hbit : Layout.managed[i] <;> simp [hbit]

namespace Config
variable {c : Config}

theorem puts_congr {mode mode' : BitVec 8}
    (h : withManaged c.vlanEnabled mode = withManaged c.vlanEnabled mode') :
    c.puts mode = c.puts mode' := by
  rw [puts, puts, h]

/-- The entries of the VLAN table in the order in which they are programmed. -/
def tableEntries (c : Config) : List (UInt16 × BitVec 32) :=
  if c.vlanEnabled then c.entries else c.chip.flatEntries

/-- Each programmed word is the one that the entry ends up with, except that without VLANs entry 1 of the fast
    Ethernet chips is cleared before. -/
theorem WellFormed.mem_tableEntries (h : c.WellFormed) {e : UInt16 × BitVec 32} (he : e ∈ c.tableEntries) :
    c.chip.firstEntry ≤ e.1.toNat ∧ e.1 < c.chip.numVlans ∧
      (e.2 = c.tableWord e.1 ∨ c.chip.family = .fastEthernet ∧ c.vlanEnabled = false ∧ e.1 = 1 ∧ e.2 = 0) := by
  unfold tableEntries at he
  unfold tableWord
  cases hon : c.vlanEnabled with
  | true =>
    rw [hon] at he
    obtain ⟨hfirst, hlt, hword⟩ := h.mem_entries.mp he
    exact ⟨hfirst, hlt, Or.inl hword⟩
  | false =>
    have hcleared : e ∈ c.chip.clearedEntries → c.chip.firstEntry ≤ e.1.toNat ∧ e.1 < c.chip.numVlans ∧
        e.2 = 0 := fun he => by
      obtain ⟨hfirst, hlt, hword⟩ := (mem_clearedEntries c.chip).1 e he
      exact ⟨hfirst, UInt16.lt_iff_toNat_lt.mpr hlt, hword⟩
    rw [hon, if_neg Bool.false_ne_true] at he
    rw [if_neg Bool.false_ne_true]
    cases hfamily : c.chip.family with
    | fastEthernet =>
      -- Entry 1 is cleared with all others before it is opened to all ports.
      have hflat : c.chip.flatEntries = c.chip.clearedEntries ++ [(1, 0x00100fff)] := by
        rw [Chip.flatEntries, hfamily]
      rcases List.mem_append.mp (hflat ▸ he) with he | he
      · obtain ⟨hfirst, hlt, hword⟩ := hcleared he
        by_cases hone : e.1 = 1
        · exact ⟨hfirst, hlt, Or.inr ⟨rfl, rfl, hone, hword⟩⟩
        · exact ⟨hfirst, hlt, Or.inl (hword.trans (if_neg fun h => hone h.2).symm)⟩
      · have hfirst : c.chip.firstEntry = 0 := by rw [Chip.firstEntry, hfamily]
        obtain rfl := List.mem_singleton.mp he
        exact ⟨hfirst ▸ Nat.zero_le _, show (1 : UInt16) < 16 by decide, Or.inl (if_pos ⟨rfl, rfl⟩).symm⟩
    | gigabit =>
      have hflat : c.chip.flatEntries = c.chip.clearedEntries := by rw [Chip.flatEntries, hfamily]
      obtain ⟨hfirst, hlt, hword⟩ := hcleared (hflat ▸ he)
      exact ⟨hfirst, hlt, Or.inl (hword.trans (if_neg fun h => absurd h.1 (by decide)).symm)⟩

/-- Applying a configuration writes the switch mode with nothing but managed mode changed. -/
theorem WellFormed.mode_puts (h : c.WellFormed) {mode : BitVec 8} {w : RegisterWrite}
    (hw : w ∈ (c.puts mode).map Put.taken)
    (hl : w.location = Layout.switchMode) : w.value = (withManaged c.vlanEnabled mode).setWidth 64 := by
  rcases h.mem_puts hw with hw | hw
  · simp only [modeWrites, List.mem_cons, List.not_mem_nil, or_false] at hw
    rcases hw with rfl | rfl | rfl | rfl | rfl
    · cases hl
    · cases hl
    · cases hl
    · cases hl
    · rfl
  · have hmode := c.chip.modeRegisters_disjoint Layout.switchMode (by decide)
    rw [hl] at hw
    simp only [List.mem_append] at hw
    rcases hw with (hw | hw) | hw
    · exact absurd hw hmode.1
    · exact absurd hw hmode.2.1
    · exact absurd hw hmode.2.2

/-- Before and after the VLAN table, applying a configuration sets registers that are none of the table's. -/
theorem WellFormed.puts_split (h : c.WellFormed) (mode : BitVec 8) : ∃ before after : List Put,
    c.puts mode = before ++ c.tableEntries.flatMap c.chip.entryPuts ++ after ∧ ∀ p ∈ before ++ after,
      p.address.location ∈ Layout.modeRegisters ++ c.chip.tagRegisters ++ c.chip.controlRegisters := by
  have hmodes : ∀ {on}, ∀ p ∈ controlPuts on ++ [.bits8 Layout.switchMode (withManaged on mode)],
      p.address.location ∈ Layout.modeRegisters := fun {on} p hp =>
    location_modeWrites (taken_mode on mode ▸ List.mem_map_of_mem hp : p.taken ∈ modeWrites on mode)
  unfold tableEntries puts
  cases c.vlanEnabled with
  | true =>
    refine ⟨controlPuts true ++ [.bits8 Layout.switchMode (withManaged true mode)] ++
      tagPuts c.ports fun p => p.pvid + c.vlanBase, [], ?_, fun p hp => ?_⟩
    · simp
    · rw [List.append_nil] at hp
      refine List.mem_append_left _ (List.mem_append.mpr ?_)
      exact (List.mem_append.mp hp).imp (hmodes p) fun hp =>
        h.tagRegister_mem (List.mem_map_of_mem (f := Put.taken) hp)
  | false =>
    refine ⟨controlPuts false ++ [.bits8 Layout.switchMode (withManaged false mode)],
      clearPuts (portsBelow (c.chip.lastPhyPort + 1)) ++ (portsBelow c.chip.numPorts).map fun port =>
        .bits16 (Layout.defaultTag port) 0,
      ?_, fun p hp => ?_⟩
    · simp
    · rcases List.mem_append.mp hp with hp | hp
      · exact List.mem_append_left _ (List.mem_append_left _ (hmodes p hp))
      · have hzero : p.taken ∈ c.chip.controlRegisters.map (RegisterWrite.mk · 0) ++
            c.chip.tagRegisters.map (RegisterWrite.mk · 0) := by
          rw [← taken_clear, ← taken_clearTags, ← List.map_append]
          exact List.mem_map_of_mem hp
        rcases List.mem_append.mp hzero with hp | hp
        · exact List.mem_append_right _ (Store.location_zeros hp)
        · exact List.mem_append_left _ (List.mem_append_right _ (Store.location_zeros hp))

theorem WellFormed.programs_puts (h : c.WellFormed) (mode : BitVec 8) :
    c.chip.Programs c.tableEntries ((c.puts mode).map Put.taken) where
  low e he := Nat.lt_trans (UInt16.lt_iff_toNat_lt.mp (h.mem_tableEntries he).2.1)
    (show (16 : UInt16).toNat < 256 by decide)
  split := by
    obtain ⟨before, after, hputs, hother⟩ := h.puts_split mode
    have hplain : ∀ p ∈ before ++ after, p.taken.location ∉ c.chip.tableRegisters := fun p hp => by
      simp only [List.mem_append] at hother hp
      rcases hother p hp with (hl | hl) | hl
      · exact (c.chip.modeRegisters_disjoint _ hl).2.2
      · exact (c.chip.tagRegisters_disjoint _ hl).2.2
      · exact (c.chip.controlRegisters_disjoint _ hl).2.2
    refine ⟨before.map Put.taken, after.map Put.taken, by rw [hputs, List.map_append, List.map_append], ?_, ?_⟩
    · exact List.forall_mem_map.mpr fun p hp => hplain p (List.mem_append_left _ hp)
    · exact List.forall_mem_map.mpr fun p hp => hplain p (List.mem_append_right _ hp)

/-- Without VLANs, applying a configuration writes all registers that any configuration writes. -/
theorem written_of_disabled (hoff : c.vlanEnabled = false) (mode : BitVec 8) {l : Location}
    (hl : l ∈ Layout.modeRegisters ++ c.chip.tagRegisters ++ c.chip.controlRegisters ++ c.chip.tableRegisters) :
    ∃ w ∈ (c.puts mode).map Put.taken, w.location = l := by
  have hzeros : ∀ {ls : List Location}, l ∈ ls → ⟨l, 0⟩ ∈ ls.map (RegisterWrite.mk · 0) :=
    fun hl => List.mem_map_of_mem hl
  rw [taken_puts_of_disabled hoff]
  simp only [List.mem_append] at hl ⊢
  rcases hl with ((hl | hl) | hl) | hl
  · obtain ⟨w, hw, hwl⟩ := List.mem_map.mp (show l ∈ (modeWrites false mode).map RegisterWrite.location from hl)
    exact ⟨w, Or.inl hw, hwl⟩
  · exact ⟨_, Or.inr (Or.inr (hzeros hl)), rfl⟩
  · exact ⟨_, Or.inr (Or.inl (Or.inr (hzeros hl))), rfl⟩
  · -- Clearing any one entry goes through all registers of the table.
    have hcleared : (UInt16.ofNat 1, 0) ∈ c.chip.clearedEntries :=
      (mem_clearedEntries c.chip).2 1 (show 1 < 16 by decide) (by cases c.chip <;> decide)
    have hentry : (UInt16.ofNat 1, 0) ∈ c.chip.flatEntries := by
      unfold Chip.flatEntries
      cases c.chip.family with
      | fastEthernet => exact List.mem_append_left _ hcleared
      | gigabit => exact hcleared
    rw [← locations_entryPuts c.chip (UInt16.ofNat 1, 0)] at hl
    obtain ⟨put, hput, rfl⟩ := List.mem_map.mp hl
    exact ⟨put.taken, Or.inr (Or.inl (Or.inl (List.mem_map_of_mem (List.mem_flatMap.mpr ⟨_, hentry, hput⟩)))),
      rfl⟩

/-- The store `s` differs from `t` in nothing but what applying the configuration to `t` sets. -/
structure ApplyAlike (c : Config) (s t : Store) : Prop where
  mode : withManaged c.vlanEnabled ((s.registers Layout.switchMode).setWidth 8) =
    withManaged c.vlanEnabled ((t.registers Layout.switchMode).setWidth 8)
  others : ∀ l, (∀ w ∈ (c.puts ((t.registers Layout.switchMode).setWidth 8)).map Put.taken, w.location ≠ l) →
    s.registers l = t.registers l
  entries : ∀ index : UInt16, index.toNat < c.chip.firstEntry ∨ c.chip.numVlans ≤ index →
    s.table index = t.table index

/-- Applying the configuration takes the same writes on such stores and makes them the same. -/
theorem ApplyAlike.sameContent (hc : c.WellFormed) {s t : Store} (h : c.ApplyAlike s t) (hs : s.Healthy c.chip)
    (ht : t.Healthy c.chip) :
    c.puts ((s.registers Layout.switchMode).setWidth 8) = c.puts ((t.registers Layout.switchMode).setWidth 8) ∧
      (s.writeAll (c.writes s)).SameContent (t.writeAll (c.writes t)) := by
  have hputs := puts_congr h.mode
  refine ⟨hputs, ?_, ?_⟩
  · funext l
    rw [writes, hputs]
    refine hs.registers_writeAll_congr ht ?_
    by_cases hl : ∃ w ∈ c.writes t, w.location = l
    · exact Or.inl hl
    · exact Or.inr (h.others l fun w hw heq => hl ⟨w, hw, heq⟩)
  · exact hc.table_puts_congr hs ht h.entries

end Config

end EtherSwitch
