import EtherSwitch.Proofs.Entries

/-! Table entries and the words that store them determine each other, but for what an entry has no place for
    and for the bits that no entry uses (`Codec`). The fields of an entry lie side by side in its word, so
    that each bit of the word belongs to one field or to none (`entries_side_by_side`). -/

namespace EtherSwitch

/-- Storing and reading entries are inverse, up to cutting an entry to its places and a word
    to the bits in use. -/
structure Codec {Entry : Type} (encode : Entry → BitVec 32) (decode : BitVec 32 → Entry) (cut : Entry → Entry)
    (used : BitVec 32) : Prop where
  decode_encode : ∀ e, decode (encode e) = cut e
  encode_decode : ∀ raw, encode (decode raw) = raw &&& used

/-- Entries that nothing is cut from are told apart by their words. -/
theorem Codec.encode_injective {Entry : Type} {encode : Entry → BitVec 32} {decode : BitVec 32 → Entry}
    {cut : Entry → Entry}
    {used : BitVec 32} (h : Codec encode decode cut used) {e e' : Entry} (he : cut e = e) (he' : cut e' = e')
    (heq : encode e = encode e') : e = e' := by
  rw [← he, ← he', ← h.decode_encode, ← h.decode_encode, heq]

/-- A set of the first ports is not cut to them. -/
theorem PortMask.and_eq_self_of_lt {n : Nat} {set mask : PortMask}
    (hmask : ∀ i, mask.getLsbD i = decide (i < n)) (h : set.toNat < 2 ^ n) : set &&& mask = set := by
  refine PortMask.and_eq_self hmask fun i hi => ?_
  rw [← BitVec.testBit_toNat]
  exact Nat.testBit_lt_two_pow (Nat.lt_of_lt_of_le h (Nat.pow_le_pow_right (by decide) hi))

namespace FastEntry

/-- The sets hold no ports but the six of the chip. -/
structure InRange (e : FastEntry) : Prop where
  members : e.members.toNat < 2 ^ 6
  untagged : e.untagged.toNat < 2 ^ 6

theorem encode_decode (raw : BitVec 32) : (decode raw).encode = raw &&& 0x1fffff := by
  apply BitVec.eq_of_getLsbD_eq
  intro i _
  have hused : (0x1fffff : BitVec 32).getLsbD i = decide (i < 21) := getLsbD_ones (show 21 ≤ 32 by decide) i
  simp only [getLsbD_encode, decode, BitVec.getLsbD_and, BitVec.getLsbD_setWidth,
    BitVec.getLsbD_ushiftRight, getLsbD_ports, hused]
  grind

/-- From the highest bit down: eleven unused bits, the valid bit, the VLAN id, the untagged
    ports and the members. -/
theorem encode_eq_append (e : FastEntry) :
    e.encode = 0#11 ++ BitVec.ofBool e.valid ++ e.vidHigh ++ e.untagged.setWidth 6 ++ e.members.setWidth 6 := by
  apply BitVec.eq_of_getLsbD_eq
  intro i _
  simp only [getLsbD_encode, BitVec.getLsbD_append, BitVec.getLsbD_setWidth, BitVec.getLsbD_zero,
    BitVec.getLsbD_ofBool]
  grind

theorem decode_append (unused : BitVec 11) (valid : Bool) (vidHigh : BitVec 8) (untagged members : BitVec 6) :
    decode (unused ++ BitVec.ofBool valid ++ vidHigh ++ untagged ++ members) =
      ⟨members.setWidth 16, untagged.setWidth 16, vidHigh, valid⟩ := by
  rw [decode, FastEntry.mk.injEq]
  refine ⟨?_, ?_, ?_, ?_⟩
  · apply BitVec.eq_of_getLsbD_eq
    intro i _
    simp only [BitVec.getLsbD_and, BitVec.getLsbD_setWidth, BitVec.getLsbD_append, getLsbD_ports]
    grind
  · apply BitVec.eq_of_getLsbD_eq
    intro i _
    simp only [BitVec.getLsbD_and, BitVec.getLsbD_setWidth, BitVec.getLsbD_ushiftRight,
      BitVec.getLsbD_append, getLsbD_ports]
    grind
  · apply BitVec.eq_of_getLsbD_eq
    intro i _
    simp only [BitVec.getLsbD_setWidth, BitVec.getLsbD_ushiftRight, BitVec.getLsbD_append]
    grind
  · simp only [BitVec.getLsbD_append]
    grind

theorem codec :
    Codec encode decode (fun e => ⟨e.members &&& ports, e.untagged &&& ports, e.vidHigh, e.valid⟩) 0x1fffff :=
  ⟨decode_encode, encode_decode⟩

theorem InRange.cut_eq {e : FastEntry} (h : e.InRange) :
    ⟨e.members &&& ports, e.untagged &&& ports, e.vidHigh, e.valid⟩ = e := by
  rw [PortMask.and_eq_self_of_lt getLsbD_ports h.members, PortMask.and_eq_self_of_lt getLsbD_ports h.untagged]

theorem InRange.encode_injective {e e' : FastEntry} (he : e.InRange) (he' : e'.InRange)
    (heq : e.encode = e'.encode) :
    e = e' :=
  codec.encode_injective he.cut_eq he'.cut_eq heq

end FastEntry

namespace GigabitEntry

/-- The sets hold no ports but the nine of the chip. -/
structure InRange (e : GigabitEntry) : Prop where
  members : e.members.toNat < 2 ^ 9
  untagged : e.untagged.toNat < 2 ^ 9

theorem encode_decode (raw : BitVec 32) : (decode raw).encode = raw &&& 0x3ffff := by
  apply BitVec.eq_of_getLsbD_eq
  intro i _
  have hused : (0x3ffff : BitVec 32).getLsbD i = decide (i < 18) := getLsbD_ones (show 18 ≤ 32 by decide) i
  simp only [getLsbD_encode, decode, BitVec.getLsbD_and, BitVec.getLsbD_setWidth,
    BitVec.getLsbD_ushiftRight, getLsbD_ports, hused]
  grind

/-- From the highest bit down: fourteen unused bits, the untagged ports and the members. -/
theorem encode_eq_append (e : GigabitEntry) :
    e.encode = 0#14 ++ e.untagged.setWidth 9 ++ e.members.setWidth 9 := by
  apply BitVec.eq_of_getLsbD_eq
  intro i _
  simp only [getLsbD_encode, BitVec.getLsbD_append, BitVec.getLsbD_setWidth, BitVec.getLsbD_zero]
  grind

theorem decode_append (unused : BitVec 14) (untagged members : BitVec 9) :
    decode (unused ++ untagged ++ members) = ⟨members.setWidth 16, untagged.setWidth 16⟩ := by
  rw [decode, GigabitEntry.mk.injEq]
  constructor
  · apply BitVec.eq_of_getLsbD_eq
    intro i _
    simp only [BitVec.getLsbD_and, BitVec.getLsbD_setWidth, BitVec.getLsbD_append, getLsbD_ports]
    grind
  · apply BitVec.eq_of_getLsbD_eq
    intro i _
    simp only [BitVec.getLsbD_and, BitVec.getLsbD_setWidth, BitVec.getLsbD_ushiftRight,
      BitVec.getLsbD_append, getLsbD_ports]
    grind

theorem codec : Codec encode decode (fun e => ⟨e.members &&& ports, e.untagged &&& ports⟩) 0x3ffff :=
  ⟨decode_encode, encode_decode⟩

theorem InRange.cut_eq {e : GigabitEntry} (h : e.InRange) :
    ⟨e.members &&& ports, e.untagged &&& ports⟩ = e := by
  rw [PortMask.and_eq_self_of_lt getLsbD_ports h.members, PortMask.and_eq_self_of_lt getLsbD_ports h.untagged]

theorem InRange.encode_injective {e e' : GigabitEntry} (he : e.InRange) (he' : e'.InRange)
    (heq : e.encode = e'.encode) :
    e = e' :=
  codec.encode_injective he.cut_eq he'.cut_eq heq

end GigabitEntry

/-- For both families storing and reading are inverse up to what is cut, entries in range are told
    apart by their words, and the fields lie side by side: each has bits of its own, into which it is
    stored and from which it is read. -/
theorem entries_side_by_side :
    (Codec FastEntry.encode FastEntry.decode
      (fun e => ⟨e.members &&& 0x3f, e.untagged &&& 0x3f, e.vidHigh, e.valid⟩) 0x1fffff ∧
      (∀ e e' : FastEntry, e.InRange → e'.InRange → e.encode = e'.encode → e = e') ∧
      (∀ e : FastEntry, e.encode =
        0#11 ++ BitVec.ofBool e.valid ++ e.vidHigh ++ e.untagged.setWidth 6 ++ e.members.setWidth 6) ∧
      ∀ (unused : BitVec 11) (valid : Bool) (vidHigh : BitVec 8) (untagged members : BitVec 6),
        FastEntry.decode (unused ++ BitVec.ofBool valid ++ vidHigh ++ untagged ++ members) =
          ⟨members.setWidth 16, untagged.setWidth 16, vidHigh, valid⟩) ∧
    Codec GigabitEntry.encode GigabitEntry.decode
      (fun e => ⟨e.members &&& 0x1ff, e.untagged &&& 0x1ff⟩) 0x3ffff ∧
      (∀ e e' : GigabitEntry, e.InRange → e'.InRange → e.encode = e'.encode → e = e') ∧
      (∀ e : GigabitEntry, e.encode = 0#14 ++ e.untagged.setWidth 9 ++ e.members.setWidth 9) ∧
      ∀ (unused : BitVec 14) (untagged members : BitVec 9),
        GigabitEntry.decode (unused ++ untagged ++ members) = ⟨members.setWidth 16, untagged.setWidth 16⟩ :=
  ⟨⟨FastEntry.codec, fun _ _ he he' => he.encode_injective he', FastEntry.encode_eq_append,
    FastEntry.decode_append⟩,
    GigabitEntry.codec, fun _ _ he he' => he.encode_injective he', GigabitEntry.encode_eq_append,
      GigabitEntry.decode_append⟩

/-- Entries with every other field full, and what is read back of them. -/
theorem entries_side_by_side_full :
    let fast : FastEntry := ⟨0x3f, 0, 0xff, false⟩
    let gigabit : GigabitEntry := ⟨0, 0x1ff⟩
    (fast.InRange ∧ (FastEntry.decode fast.encode).InRange ∧
      fast.encode = (FastEntry.decode fast.encode).encode ∧
      fast = FastEntry.decode fast.encode) ∧
    gigabit.InRange ∧ (GigabitEntry.decode gigabit.encode).InRange ∧
      gigabit.encode = (GigabitEntry.decode gigabit.encode).encode ∧
        gigabit = GigabitEntry.decode gigabit.encode := by
  intro fast gigabit
  obtain ⟨⟨-, hfast, -⟩, -, hgigabit, -⟩ := entries_side_by_side
  have hf : fast.InRange := ⟨by decide, by decide⟩
  have hf' : (FastEntry.decode fast.encode).InRange := ⟨by decide, by decide⟩
  have hg : gigabit.InRange := ⟨by decide, by decide⟩
  have hg' : (GigabitEntry.decode gigabit.encode).InRange := ⟨by decide, by decide⟩
  exact ⟨⟨hf, hf', by decide, hfast _ _ hf hf' (by decide)⟩, hg,
    hg', by decide, hgigabit _ _ hg hg' (by decide)⟩

end EtherSwitch
