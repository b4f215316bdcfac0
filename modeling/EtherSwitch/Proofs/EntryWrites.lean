import EtherSwitch.Family
import EtherSwitch.Proofs.Applying

/-! What one write of a fast Ethernet table entry leaves on the chip, for sets of all sixteen bits. Whether the
    entry is valid goes by the set that was given, while the ports that it holds go by the set cut to those of
    an entry. So an entry is valid exactly when it has members, unless ports were given and all of them are
    beyond the entry (`FastEntry.Stores.agrees`). -/

namespace EtherSwitch
open Script

namespace FastEntry
variable {members untagged : PortMask} {vidHigh : BitVec 8} {word : BitVec 32}

/-- What a stored word tells of the sets and the upper VLAN id bits that it was written for. -/
structure Stores (members untagged : PortMask) (vidHigh : BitVec 8) (word : BitVec 32) : Prop where
  members_eq : (decode word).members = members &&& ports
  valid_iff : (decode word).valid = true ↔ members ≠ 0
  zero_of_empty : members = 0 → word = 0
  rest_eq : members ≠ 0 → (decode word).untagged = untagged &&& ports ∧ (decode word).vidHigh = vidHigh

theorem stores_entryWord (members untagged : PortMask) (vidHigh : BitVec 8) :
    Stores members untagged vidHigh (FastEthernet.entryWord members untagged vidHigh) := by
  by_cases hempty : members = 0
  · subst hempty
    have hword : FastEthernet.entryWord 0 untagged vidHigh = 0 := if_pos rfl
    rw [hword]
    exact ⟨rfl, by decide, fun _ => rfl, fun h => absurd rfl h⟩
  · have hdecode : decode (FastEthernet.entryWord members untagged vidHigh) =
        ⟨members &&& ports, untagged &&& ports, vidHigh, true⟩ := by
      rw [FastEthernet.entryWord, if_neg hempty, decode_encode]
    constructor
    case members_eq => rw [hdecode]
    case valid_iff =>
      rw [hdecode]
      exact ⟨fun _ => hempty, fun _ => rfl⟩
    case zero_of_empty => exact fun h => absurd h hempty
    case rest_eq =>
      rw [hdecode]
      exact fun _ => ⟨rfl, rfl⟩

/-- The valid bit agrees with the members of the entry for all sets but those of ports beyond it. -/
theorem Stores.agrees (h : Stores members untagged vidHigh word) :
    ((decode word).valid = true ↔ (decode word).members ≠ 0) ↔ members = 0 ∨ members &&& ports ≠ 0 := by
  rw [h.valid_iff, h.members_eq]
  constructor
  · intro hsame
    by_cases hempty : members = 0
    · exact Or.inl hempty
    · exact Or.inr (hsame.mp hempty)
  · rintro (rfl | hinside)
    · exact ⟨fun h => absurd rfl h, fun h => absurd BitVec.zero_and h⟩
    · refine ⟨fun _ => hinside, ?_⟩
      rintro - rfl
      exact hinside BitVec.zero_and

end FastEntry

/-- A run wrote one entry of the VLAN table and no other. -/
structure EntryWritten (s : Store) (index : UInt16) (members untagged : PortMask) (vidHigh : BitVec 8)
    (r : Except Error Unit × Nat × Simulation) : Prop where
  succeeds : r.1 = .ok ()
  stored : ∃ word, r.2.2.store.table index = some word ∧ FastEntry.Stores members untagged vidHigh word ∧
    (((FastEntry.decode word).valid = true ↔ (FastEntry.decode word).members ≠ 0) ↔
      members = 0 ∨ members &&& FastEntry.ports ≠ 0)
  others : ∀ i, i ≠ index → r.2.2.store.table i = s.table i

namespace FastEthernet
variable {chip : Chip} {e : Engine} {s : Simulation} {index : UInt16}

theorem uses_entryPuts (chip : Chip) (entry : UInt16 × BitVec 32) :
    Uses Engine.Plain (emit (chip.entryPuts entry)) := by
  refine uses_emit fun p hp => chip.registers_plain _ (List.mem_append_right _ ?_)
  rw [← locations_entryPuts chip entry]
  exact List.mem_map.mpr ⟨p, hp, rfl⟩

/-- Writing an entry of any fast Ethernet chip, or programming it, succeeds, stores what was given, cut to
    the ports of an entry, and leaves the other entries alone, whatever the chip held before and whichever
    engine reaches it. -/
theorem writeEntry_stores (he : e.Attached) (hs : s.Reachable) (hfree : s.FaultFree)
    (hchip : s.store.chip = some chip)
    (hfamily : chip.family = .fastEthernet) (hindex : index < 16) (members untagged : PortMask)
    (vidHigh : BitVec 8) (n : Nat) :
    EntryWritten s.store index members untagged vidHigh
        (runOn e.device (writeEntry chip index members untagged vidHigh) (n, s)) ∧
      EntryWritten s.store index members untagged 0
        (runOn e.device (chip.family.programEntry chip index members untagged) (n, s)) := by
  have hwrites : ∀ high : BitVec 8, EntryWritten s.store index members untagged high
      (runOn e.device (writeEntry chip index members untagged high) (n, s)) := by
    intro high
    have hword := FastEntry.stores_entryWord members untagged high
    rw [writeEntry_eq hfamily hindex]
    obtain ⟨hok, hstore⟩ := Engine.runOn_does he hs hfree (uses_entryPuts chip _) (Store.does_emit _) n
    have hlow : index.toNat < 256 := Nat.lt_trans (UInt16.lt_iff_toNat_lt.mp hindex) (by decide)
    have htable :=
      Store.table_entryPuts (e := (index, entryWord members untagged high)) hchip hfree.forwards hlow
    rw [← hstore] at htable
    refine ⟨hok, ⟨_, ?_, hword, hword.agrees⟩, fun i hi => ?_⟩
    · rw [htable, Store.table_setEntry_self]
    · rw [htable, Store.table_setEntry_of_ne _ _ hi]
  refine ⟨hwrites vidHigh, ?_⟩
  rw [hfamily]
  exact hwrites 0

theorem writeEntry_stores_cut :
    (Engine.spi.Attached ∧ (Chip.bcm5325E).family = .fastEthernet ∧ (2 : UInt16) < 16) ∧
      EntryWritten (Simulation.new (.ofChip .bcm5325E)).store 2 0x1c3 0x41 5
        (runOn Engine.spi.device (writeEntry .bcm5325E 2 0x1c3 0x41 5) (0, .new (.ofChip .bcm5325E))) :=
  ⟨⟨trivial, rfl, by decide⟩, (writeEntry_stores (e := .spi) trivial
    (Simulation.reachable_new (.ofChip .bcm5325E)) ⟨rfl, rfl, rfl⟩ rfl rfl (by decide) 0x1c3 0x41 5 0).1⟩

/-- An entry for port 6, which it has no place for, is valid and has no members. -/
theorem writeEntry_valid_without_members :
    (runOn Engine.spi.device (writeEntry .bcm5325E 1 0x40 0 0) (0, .new (.ofChip .bcm5325E))).1 = .ok () ∧
      ((runOn Engine.spi.device (writeEntry .bcm5325E 1 0x40 0 0)
        (0, .new (.ofChip .bcm5325E))).2.2.store.table 1).map FastEntry.decode = some ⟨0, 0, 0, true⟩ :=
  ⟨rfl, by decide +kernel⟩

end FastEthernet

end EtherSwitch
