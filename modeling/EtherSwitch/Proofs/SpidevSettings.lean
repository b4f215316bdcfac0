import EtherSwitch.Proofs.Numerals
import EtherSwitch.Proofs.SpidevOptions

/-! Which options make settings of a spidev node, and which settings: those whose numbers are sound and whose
    last device is named. They make the settings that the last options of each kind name, with a clock that is
    the kHz of its option in full, and of the options that are not sound the first is reported
    (`Settings.ofOptions_reads_numerals`). -/

namespace EtherSwitch.Spidev

/-- The text is a clock of so many kHz, whose frequency in Hz fits 32 bits. -/
def IsClock (text : String) (khz : Nat) : Prop := Numeral.Spells 10 text.toList khz ∧ khz * 1000 < 2 ^ 32

/-- The text is the number of a mode. -/
def IsMode (text : String) (n : Nat) : Prop := Numeral.Spells 10 text.toList n ∧ n ≤ 3

/-- The option gives a clock or a mode only by a number that is one. -/
structure Sound (o : String × String) : Prop where
  clock : o.1 = "speed" ∨ o.1 = "spispeed" → ∃ khz, IsClock o.2 khz
  mode : o.1 = "mode" → ∃ n, IsMode o.2 n

/-- The option has one of the keys that mean something. -/
def Known (o : String × String) : Prop := o.1 ∈ ["dev", "speed", "spispeed", "mode"]

instance : DecidablePred Known := fun o => inferInstanceAs (Decidable (o.1 ∈ _))

/-- What reading options gives, told by the last option of each kind and by the first that is not sound. -/
structure Settings.Reading (options : List (String × String))
    (result : Except OptionError Settings) : Prop where
  accepted : (∃ s, result = .ok s) ↔
    (∀ o ∈ options, Sound o) ∧ ∃ device, lastUnder ["dev"] options = some device ∧ device ≠ ""
  device : ∀ s, result = .ok s → lastUnder ["dev"] options = some s.device
  clock : ∀ s, result = .ok s →
    match lastUnder ["speed", "spispeed"] options with
    | some text => ∃ khz, Numeral.Spells 10 text.toList khz ∧ s.clockHz.toNat = khz * 1000
    | none => s.clockHz.toNat = 2000000
  mode : ∀ s, result = .ok s →
    match lastUnder ["mode"] options with
    | some text => Numeral.Spells 10 text.toList s.mode.number.toNat
    | none => s.mode.number = 0
  unsoundClock : ∀ front key value rest, options = front ++ (key, value) :: rest → (∀ o ∈ front, Sound o) →
    key = "speed" ∨ key = "spispeed" → (¬∃ khz, IsClock value khz) → result = .error (.clock key value)
  unsoundMode : ∀ front value rest, options = front ++ ("mode", value) :: rest → (∀ o ∈ front, Sound o) →
    (¬∃ n, IsMode value n) → result = .error (.mode value)
  deviceless : result = .error .deviceMissing ↔
    (∀ o ∈ options, Sound o) ∧ ¬∃ device, lastUnder ["dev"] options = some device ∧ device ≠ ""

/-! ### Numbers -/

theorem clockOfText?_eq_some_iff {text : String} {clockHz : UInt32} :
    clockOfText? text = some clockHz ↔ ∃ khz, IsClock text khz ∧ clockHz.toNat = khz * 1000 := by
  simp only [clockOfText?, Option.bind_eq_bind, Option.bind_eq_some_iff,
    Numeral.parse?_eq_some_iff_spells (by decide : 10 ≤ 16),
    Option.ite_none_right_eq_some, Option.some.injEq, IsClock]
  constructor
  · rintro ⟨khz, ⟨hspells, -⟩, hlt, rfl⟩
    exact ⟨khz, ⟨hspells, hlt⟩, UInt32.toNat_ofNat_of_lt' hlt⟩
  · rintro ⟨khz, ⟨hspells, hlt⟩, hclock⟩
    refine ⟨khz, ⟨hspells, ?_⟩, hlt, ?_⟩
    · show khz < 2 ^ 32
      omega
    · rw [← hclock, UInt32.ofNat_toNat]

theorem Mode.ofNumber?_eq_some_iff {n : Nat} {m : Mode} : Mode.ofNumber? n = some m ↔ n = m.number.toNat := by
  constructor
  · intro h
    match n with
    | 0 | 1 | 2 | 3 =>
      obtain rfl := Option.some.inj h
      rfl
    | n + 4 => cases h
  · rintro rfl
    exact Mode.ofNumber?_number m

theorem Mode.exists_number_iff {n : Nat} : (∃ m : Mode, n = m.number.toNat) ↔ n ≤ 3 := by
  constructor
  · rintro ⟨m, rfl⟩
    cases m <;> decide
  · intro h
    match n, h with
    | 0, _ => exact ⟨.mode0, rfl⟩
    | 1, _ => exact ⟨.mode1, rfl⟩
    | 2, _ => exact ⟨.mode2, rfl⟩
    | 3, _ => exact ⟨.mode3, rfl⟩

theorem modeOfText?_eq_some_iff {text : String} {m : Mode} :
    modeOfText? text = some m ↔ Numeral.Spells 10 text.toList m.number.toNat := by
  simp only [modeOfText?, Option.bind_eq_bind, Option.bind_eq_some_iff,
    Numeral.parse?_eq_some_iff_spells (by decide : 10 ≤ 16), Mode.ofNumber?_eq_some_iff]
  constructor
  · rintro ⟨_, ⟨hspells, -⟩, rfl⟩
    exact hspells
  · intro hspells
    exact ⟨_, ⟨hspells, m.number.toNat_lt⟩, rfl⟩

theorem clockOfText?_isSome_iff {text : String} : (clockOfText? text).isSome ↔ ∃ khz, IsClock text khz := by
  simp only [Option.isSome_iff_exists, clockOfText?_eq_some_iff]
  constructor
  · rintro ⟨_, khz, hclock, -⟩
    exact ⟨khz, hclock⟩
  · rintro ⟨khz, hclock⟩
    exact ⟨UInt32.ofNat (khz * 1000), khz, hclock, UInt32.toNat_ofNat_of_lt' hclock.2⟩

theorem modeOfText?_isSome_iff {text : String} : (modeOfText? text).isSome ↔ ∃ n, IsMode text n := by
  simp only [Option.isSome_iff_exists, modeOfText?_eq_some_iff, IsMode, ← Mode.exists_number_iff]
  constructor
  · rintro ⟨m, hspells⟩
    exact ⟨_, hspells, m, rfl⟩
  · rintro ⟨_, hspells, m, rfl⟩
    exact ⟨m, hspells⟩

/-! ### Options -/

theorem mem_clockKeys {key : String} : key ∈ clockKeys ↔ key = "speed" ∨ key = "spispeed" := by
  simp [clockKeys]

theorem objection?_clock {key : String} (hkey : key ∈ clockKeys) (value : String) :
    objection? (key, value) = if (clockOfText? value).isSome then none else some (.clock key value) :=
  if_pos hkey

theorem objection?_mode (value : String) :
    objection? ("mode", value) = if (modeOfText? value).isSome then none else some (.mode value) := by
  rw [objection?, if_neg (show "mode" ∉ clockKeys by decide), if_pos rfl]

theorem objection?_other {o : String × String} (hclock : o.1 ∉ clockKeys) (hmode : o.1 ≠ "mode") :
    objection? o = none := by
  rw [objection?, if_neg hclock, if_neg hmode]

theorem objection?_eq_none_iff {o : String × String} : objection? o = none ↔ Sound o := by
  have hrefused : ∀ {read : Bool} {e : OptionError}, (if read then none else some e) = none ↔
      read = true := by simp
  obtain ⟨key, value⟩ := o
  -- No key is both a clock's and a mode's: under either, the other half of soundness asks nothing.
  by_cases hclock : key ∈ clockKeys
  · have hmode : key ≠ "mode" := by
      rintro rfl
      exact absurd hclock (by decide)
    rw [objection?_clock hclock, hrefused, clockOfText?_isSome_iff]
    exact ⟨fun h => ⟨fun _ => h, fun hkey => absurd hkey hmode⟩, fun h => h.clock (mem_clockKeys.mp hclock)⟩
  by_cases hmode : key = "mode"
  · subst hmode
    rw [objection?_mode, hrefused, modeOfText?_isSome_iff]
    exact ⟨fun h => ⟨fun hkey => absurd (mem_clockKeys.mpr hkey) hclock, fun _ => h⟩, fun h => h.mode rfl⟩
  · rw [objection?_other hclock hmode]
    exact ⟨fun _ => ⟨fun hkey => absurd (mem_clockKeys.mpr hkey) hclock, fun hkey => absurd hkey hmode⟩,
      fun _ => rfl⟩

theorem objection?_ne_deviceMissing (o : String × String) : objection? o ≠ some .deviceMissing := by
  simp only [objection?]
  split
  · split <;> simp
  · split
    · split <;> simp
    · simp

theorem objection?_of_unknown {o : String × String} (h : ¬Known o) : objection? o = none := by
  simp only [Known, List.mem_cons, List.not_mem_nil, or_false, not_or] at h
  exact objection?_other (fun hclock => (mem_clockKeys.mp hclock).elim h.2.1 h.2.2.1) h.2.2.2

namespace Settings
variable {options front rest : List (String × String)} {o : String × String} {s : Settings}

theorem ofLast_device_ne_iff :
    (ofLast options).device ≠ "" ↔ ∃ device, lastUnder ["dev"] options = some device ∧ device ≠ "" :=
  lastUnder_getD_ne_iff

theorem ofOptions_of_first {e : OptionError} (hfront : ∀ o ∈ front, Sound o) (ho : objection? o = some e) :
    ofOptions (front ++ o :: rest) = .error e := by
  rw [ofOptions_eq_judge]
  exact judge_of_first (fun o' ho' => objection?_eq_none_iff.mpr (hfront o' ho')) ho

theorem clock_of_ofOptions (h : ofOptions options = .ok s) :
    match lastUnder clockKeys options with
    | some text => ∃ khz, Numeral.Spells 10 text.toList khz ∧ s.clockHz.toNat = khz * 1000
    | none => s.clockHz.toNat = 2000000 := by
  obtain ⟨hgood, -, rfl⟩ := ofOptions_eq_ok_iff.mp h
  cases hlast : lastUnder clockKeys options with
  | none =>
    rw [ofLast, hlast]
    rfl
  | some text =>
    obtain ⟨o, ho, hkey, rfl⟩ := mem_of_lastUnder hlast
    obtain ⟨clockHz, hread⟩ := clockOfText?_isSome hkey (hgood o ho)
    obtain ⟨khz, hclock, hhz⟩ := clockOfText?_eq_some_iff.mp hread
    refine ⟨khz, hclock.1, ?_⟩
    rw [ofLast, hlast, Option.bind_some, hread, Option.getD_some, hhz]

theorem mode_of_ofOptions (h : ofOptions options = .ok s) :
    match lastUnder ["mode"] options with
    | some text => Numeral.Spells 10 text.toList s.mode.number.toNat
    | none => s.mode.number = 0 := by
  obtain ⟨hgood, -, rfl⟩ := ofOptions_eq_ok_iff.mp h
  cases hlast : lastUnder ["mode"] options with
  | none =>
    rw [ofLast, hlast]
    rfl
  | some text =>
    obtain ⟨o, ho, hkey, rfl⟩ := mem_of_lastUnder hlast
    obtain ⟨n, hmode⟩ := (objection?_eq_none_iff.mp (hgood o ho)).mode (List.mem_singleton.mp hkey)
    obtain ⟨m, hread⟩ := Option.isSome_iff_exists.mp (modeOfText?_isSome_iff.mpr ⟨n, hmode⟩)
    rw [ofLast, hlast, Option.bind_some, hread, Option.getD_some]
    exact modeOfText?_eq_some_iff.mp hread

theorem reading_options (options : List (String × String)) : Reading options (ofOptions options) where
  accepted := by
    simp only [exists_ofOptions_iff, objection?_eq_none_iff, ofLast_device_ne_iff]
  device s hs := by
    obtain ⟨-, hdevice, rfl⟩ := ofOptions_eq_ok_iff.mp hs
    obtain ⟨device, hlast, -⟩ := ofLast_device_ne_iff.mp hdevice
    rw [ofLast, hlast, Option.getD_some]
  clock s hs := clock_of_ofOptions hs
  mode s hs := mode_of_ofOptions hs
  unsoundClock front key value rest hoptions hfront hkey hclock := by
    rw [hoptions]
    refine ofOptions_of_first hfront ?_
    rw [objection?_clock (mem_clockKeys.mpr hkey), if_neg fun hsome =>
      hclock (clockOfText?_isSome_iff.mp hsome)]
  unsoundMode front value rest hoptions hfront hmode := by
    rw [hoptions]
    refine ofOptions_of_first hfront ?_
    rw [objection?_mode, if_neg fun hsome => hmode (modeOfText?_isSome_iff.mp hsome)]
  deviceless := by
    rw [ofOptions_eq_judge, judge_eq_missing_iff objection?_ne_deviceMissing, ← ofLast_device_ne_iff, not_not]
    simp only [objection?_eq_none_iff]

theorem ofOptions_known (options : List (String × String)) :
    ofOptions (options.filter fun o => Known o) = ofOptions options := by
  have hlast : ∀ keys : List String, (∀ key ∈ keys, Known (key, "")) →
      lastUnder keys (options.filter fun o => Known o) = lastUnder keys options := fun keys hkeys =>
    lastUnder_filter (fun o ho => decide_eq_true (hkeys o.1 ho)) options
  have hofLast : ofLast (options.filter fun o => Known o) = ofLast options := by
    rw [ofLast, hlast ["dev"] (by decide), hlast clockKeys (by decide), hlast ["mode"] (by decide), ← ofLast]
  rw [ofOptions_eq_judge, ofOptions_eq_judge]
  exact judge_filter (fun o ho => objection?_of_unknown (of_decide_eq_false ho)) hofLast

/-- Options make settings exactly if their numbers are sound and the last device has a name; they are what the
    last options name, whatever stands under other keys. -/
theorem ofOptions_reads_numerals (options : List (String × String)) :
    Reading options (ofOptions options) ∧ ofOptions (options.filter fun o => Known o) = ofOptions options :=
  ⟨reading_options options, ofOptions_known options⟩

/-- The fastest clock, under the other of its keys. -/
example :
    ofOptions [("mode", "+03"), ("speed", "1"), ("dev", "/dev/null"), ("spispeed", "4294967"), ("cs", "no")] =
    .ok ⟨"/dev/null", 4294967000, .mode3⟩ := by
  decide +kernel

/-- One kHz more is refused, before the mode behind it and the device that is missing. -/
example : ofOptions [("spispeed", "4294968"), ("mode", "4")] = .error (.clock "spispeed" "4294968") := by
  decide +kernel

end Settings

end EtherSwitch.Spidev
