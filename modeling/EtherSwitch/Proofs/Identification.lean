import EtherSwitch.Proofs.Conversations
import EtherSwitch.Proofs.Registration

/-! The procedure by which a chip is identified, over registers that answer anything. The probe only reads: the
    8-bit device id until it is not zero or was read ten times, then what tells the chip behind that id, and
    the revision last. A read that fails ends it with its error (`probe_keeps_procedure`). -/

namespace EtherSwitch

theorem Registers.exists_passed (c : Registers.Call) : ∃ a, Exchange.Passed (I := Registers) ⟨c, a⟩ := by
  cases c with
  | read a =>
    refine ⟨.ok 0, ?_⟩
    rintro e ⟨_, ⟨⟩, ⟨⟩⟩
  | write a value =>
    refine ⟨.ok (), ?_⟩
    rintro e ⟨_, ⟨⟩, ⟨⟩⟩

/-- A read of a register that was answered. -/
def Registers.told (l : Location) (w : Width) (value : BitVec 64) : Exchange Registers :=
  ⟨.read ⟨l, w⟩, .ok value⟩

open Registers (told)

/-! ### The procedure -/

/-- What an 8-bit device id takes to tell the chip: the reads, and the chip or why there is none. -/
inductive Resolution : BitVec 8 → List (Exchange Registers) → Except Error Chip → Prop where
  | shared {id : BitVec 8} (h : id ∈ [0x00, 0x01]) (control : BitVec 64) :
    Resolution id [told Layout.vlanControl4 .bits8 control]
      (.ok (if control.setWidth 8 = 1#8 then .bcm5325E
        else if control.setWidth 8 = 3#8 then .bcm5325F else .bcm5325M))
  | named {id : BitVec 8} {chip : Chip}
    (h : (id, chip) ∈ [(0x95, .bcm5395), (0x97, .bcm5397), (0x98, .bcm5398)]) :
    Resolution id [] (.ok chip)
  /-- For any other id its 16 bits count. -/
  | wide {id : BitVec 8} (h : id ∉ [0x00, 0x01, 0x95, 0x97, 0x98]) (id16 : BitVec 64) {chip : Chip}
    (hchip : (id16.setWidth 16, chip) ∈ [(0x3115#16, .bcm53115), (0x3125#16, .bcm53125)]) :
    Resolution id [told Layout.deviceId .bits16 id16] (.ok chip)
  | unknown {id : BitVec 8} (h : id ∉ [0x00, 0x01, 0x95, 0x97, 0x98]) (id16 : BitVec 64)
    (hchip : id16.setWidth 16 ∉ [0x3115#16, 0x3125#16]) :
    Resolution id [told Layout.deviceId .bits16 id16] (.error (.unknownChip (id16.setWidth 16)))

/-- The 8-bit device id is not zero. -/
def ShowsId (value : BitVec 64) : Prop := value.setWidth 8 ≠ 0

/-- The reads of a wait for the device id. -/
def Wait.reads (ids : Wait (BitVec 64)) : List (Exchange Registers) :=
  (ids.early ++ ids.last.toList).map (told Layout.deviceId .bits8)

/-- The device id that a wait gave; it is zero if none showed. -/
def Wait.deviceId (ids : Wait (BitVec 64)) : BitVec 8 := ids.last.elim 0 (BitVec.setWidth 8)

/-- The reads of an identification in which none fails, and its result. -/
def Identification (talk : List (Exchange Registers)) (result : Except Error Identity) : Prop :=
  ∃ (ids : Wait (BitVec 64)) (further : List (Exchange Registers)) (chip : Except Error Chip),
    ids.Ended ShowsId 10 ∧ Resolution ids.deviceId further chip ∧
      match chip with
      | .error e => talk = ids.reads ++ further ∧ result = .error e
      | .ok chip => ∃ revision, talk = ids.reads ++ further ++ [told Layout.coreRevision .bits8 revision] ∧
          result = .ok ⟨chip, UInt8.ofBitVec (revision.setWidth 8)⟩

/-! ### The script -/

namespace Chip
variable {id : BitVec 8} {id16 : BitVec 16} {chip : Chip}

theorem isSharedId_iff : isSharedId id = true ↔ id ∈ [0x00, 0x01] := by simp [isSharedId]

theorem ofId8?_eq_some_iff : ofId8? id = some chip ↔
    (id, chip) ∈ [(0x95, bcm5395), (0x97, bcm5397), (0x98, bcm5398)] := by
  grind [ofId8?]

theorem ofId8?_eq_none_iff : ofId8? id = none ↔ id ∉ [0x95, 0x97, 0x98] := by
  grind [ofId8?]

theorem ofId16?_eq_some_iff : ofId16? id16 = some chip ↔
    (id16, chip) ∈ [(0x3115#16, bcm53115), (0x3125#16, bcm53125)] := by
  grind [ofId16?]

theorem ofId16?_eq_none_iff : ofId16? id16 = none ↔ id16 ∉ [0x3115#16, 0x3125#16] := by
  grind [ofId16?]

end Chip

namespace Script
variable {α β : Type}

/-- Without refusals the script can have this conversation and end with this answer. -/
def Talks (p : Script α) (talk : List (Exchange Registers)) (answer : Except Error α) : Prop :=
  p.run.Converses Exchange.Passed talk answer

namespace Talks
variable {talk : List (Exchange Registers)} {l : Location}

theorem pure {a : α} {answer : Except Error α} (h : Talks (pure a) talk answer) :
    talk = [] ∧ answer = .ok a := h

theorem throw {e : Error} {answer : Except Error α} (h : Talks (throw e) talk answer) :
    talk = [] ∧ answer = .error e := h

theorem bind {p : Script α} {f : α → Script β} {answer : Except Error β} (h : Talks (p >>= f) talk answer) :
    (∃ e, Talks p talk (.error e) ∧ answer = .error e) ∨
      ∃ a first rest, talk = first ++ rest ∧ Talks p first (.ok a) ∧ Talks (f a) rest answer := by
  obtain ⟨first, a | a, rest, rfl, hp, hf⟩ := Program.Converses.bind (p := p.run) (f := ExceptT.bindCont f) h
  · obtain ⟨rfl, rfl⟩ := hf
    rw [List.append_nil]
    exact Or.inl ⟨a, hp, rfl⟩
  · exact Or.inr ⟨a, first, rest, rfl, hp, hf⟩

/-- A read without a refusal was answered, and what follows gets the answer. -/
theorem bind_read {a : Address} {f : BitVec 64 → Script β} {answer : Except Error β}
    (h : Talks (read a >>= f) talk answer) :
    ∃ value rest, talk = told a.location a.width value :: rest ∧ Talks (f value) rest answer := by
  obtain ⟨_ | value, rest, rfl, hpass, hrest⟩ := Program.Converses.uncons h
  · exact (hpass _ ⟨_, rfl, rfl⟩).elim
  · exact ⟨value, rest, rfl, hrest⟩

theorem bind_read8 {f : BitVec 8 → Script β} {answer : Except Error β} (h : Talks (read8 l >>= f) talk answer) :
    ∃ value rest, talk = told l .bits8 value :: rest ∧ Talks (f (value.setWidth 8)) rest answer := by
  rw [read8, bind_assoc] at h
  obtain ⟨value, rest, rfl, hrest⟩ := h.bind_read
  rw [pure_bind] at hrest
  exact ⟨value, rest, rfl, hrest⟩

theorem bind_read16 {f : BitVec 16 → Script β} {answer : Except Error β}
    (h : Talks (read16 l >>= f) talk answer) :
    ∃ value rest, talk = told l .bits16 value :: rest ∧ Talks (f (value.setWidth 16)) rest answer := by
  rw [read16, bind_assoc] at h
  obtain ⟨value, rest, rfl, hrest⟩ := h.bind_read
  rw [pure_bind] at hrest
  exact ⟨value, rest, rfl, hrest⟩

end Talks

/-- Reading the device id ends with the first one that shows, or with zero after the last retry. -/
theorem readDeviceId_talks {retries : Nat} {talk : List (Exchange Registers)} {answer : Except Error (BitVec 8)}
    (h : Talks (readDeviceId retries) talk answer) :
    ∃ ids : Wait (BitVec 64), ids.Ended ShowsId (retries + 1) ∧ talk = ids.reads ∧
      answer = .ok ids.deviceId := by
  induction retries generalizing talk with
  | zero =>
    rw [readDeviceId, ← bind_pure (read8 Layout.deviceId)] at h
    obtain ⟨value, rest, rfl, hrest⟩ := h.bind_read8
    obtain ⟨rfl, rfl⟩ := hrest.pure
    by_cases hshows : ShowsId value
    · exact ⟨⟨[], some value⟩, Wait.ended_now hshows, rfl, rfl⟩
    · refine ⟨⟨[value], none⟩, Wait.ended_zero.later hshows, rfl, ?_⟩
      rw [Decidable.not_not.mp hshows]
      rfl
  | succ retries ih =>
    rw [readDeviceId] at h
    obtain ⟨value, rest, rfl, hrest⟩ := h.bind_read8
    by_cases hshows : ShowsId value
    · rw [if_neg hshows] at hrest
      obtain ⟨rfl, rfl⟩ := hrest.pure
      exact ⟨⟨[], some value⟩, Wait.ended_now hshows, rfl, rfl⟩
    · rw [if_pos (Decidable.not_not.mp hshows)] at hrest
      obtain ⟨ids, hended, rfl, rfl⟩ := ih hrest
      exact ⟨⟨value :: ids.early, ids.last⟩, hended.later hshows, rfl, rfl⟩

theorem resolveChip_talks {id : BitVec 8} {talk : List (Exchange Registers)} {answer : Except Error Chip}
    (h : Talks (resolveChip id) talk answer) : Resolution id talk answer := by
  rw [resolveChip] at h
  cases hshared : Chip.isSharedId id with
  | true =>
    rw [hshared, if_pos rfl] at h
    obtain ⟨control, rest, rfl, hrest⟩ := h.bind_read8
    obtain ⟨rfl, rfl⟩ := hrest.pure
    exact .shared (Chip.isSharedId_iff.mp hshared) control
  | false =>
    rw [hshared, if_neg Bool.false_ne_true] at h
    cases hnamed : Chip.ofId8? id with
    | some chip =>
      rw [hnamed] at h
      obtain ⟨rfl, rfl⟩ := h.pure
      exact .named (Chip.ofId8?_eq_some_iff.mp hnamed)
    | none =>
      have hother : id ∉ [0x00, 0x01, 0x95, 0x97, 0x98] := by
        have hnot : id ∉ [0x00, 0x01] :=
          fun h => Bool.false_ne_true (hshared.symm.trans (Chip.isSharedId_iff.mpr h))
        exact List.not_mem_append hnot (Chip.ofId8?_eq_none_iff.mp hnamed)
      rw [hnamed] at h
      obtain ⟨id16, rest, rfl, hrest⟩ := h.bind_read16
      cases hwide : Chip.ofId16? (id16.setWidth 16) with
      | some chip =>
        rw [hwide] at hrest
        obtain ⟨rfl, rfl⟩ := hrest.pure
        exact .wide hother id16 (Chip.ofId16?_eq_some_iff.mp hwide)
      | none =>
        rw [hwide] at hrest
        obtain ⟨rfl, rfl⟩ := hrest.throw
        exact .unknown hother id16 (Chip.ofId16?_eq_none_iff.mp hwide)

/-- A probe without refusals follows the procedure. -/
theorem probe_talks {talk : List (Exchange Registers)} {result : Except Error Identity}
    (h : Talks probe talk result) :
    Identification talk result := by
  rcases h.bind with ⟨e, hids, -⟩ | ⟨id, first, rest, rfl, hids, hrest⟩
  · obtain ⟨_, -, -, hok⟩ := readDeviceId_talks hids
    cases hok
  · obtain ⟨ids, hended, rfl, hok⟩ := readDeviceId_talks hids
    cases hok
    rcases hrest.bind with ⟨e, hchip, rfl⟩ | ⟨chip, further, last, rfl, hchip, hlast⟩
    · exact ⟨ids, rest, .error e, hended, resolveChip_talks hchip, rfl, rfl⟩
    · obtain ⟨revision, rest, rfl, hend⟩ := hlast.bind_read8
      obtain ⟨rfl, rfl⟩ := hend.pure
      exact ⟨ids, further, .ok chip, hended, resolveChip_talks hchip, revision,
        (List.append_assoc _ _ _).symm, rfl⟩

end Script

/-- Over registers that answer anything, a probe only reads. Its reads and its result are those of the
    procedure, or the procedure is cut off at the first read that fails, with that error. -/
theorem probe_keeps_procedure {σ : Type} (d : Device Registers σ) (s : σ) :
    let talk := probe.run.exchanges d s
    let result := (Script.runOn d probe s).1
    (∀ x ∈ talk, ∃ a, x.1 = .read a) ∧
    (Identification talk result ∨
      ∃ e whole wholeResult, Identification whole wholeResult ∧ CutOff whole talk e ∧ result = .error e) := by
  have hrun := probe.run.converses_run d s
  have huses : Script.Uses (fun c => ∃ a, c = .read a) probe := uses_probe fun l _ w => ⟨⟨l, w⟩, rfl⟩
  refine ⟨Program.Calls.of_mem_exchanges huses.calls d s, ?_⟩
  rcases huses.prompt.whole_or_cut Registers.exists_passed hrun with hwhole |
    ⟨e, whole, wholeResult, hwhole, hcut, hfailed⟩
  · exact Or.inl (Script.probe_talks hwhole)
  · exact Or.inr ⟨e, whole, wholeResult, Script.probe_talks hwhole, hcut, hfailed⟩

end EtherSwitch
