import EtherSwitch.Linux.Spidev
import EtherSwitch.Proofs.OptionLists

/-! The settings of a spidev node that options make: those of the last option of each kind, unless there is an
    option to object to or no device (`Settings.ofOptions_eq_ok_iff`). The clock has two keys, so even options
    with distinct keys can give it twice; then, and only then, their order counts
    (`Settings.ofOptions_any_order`). -/

namespace EtherSwitch.Spidev

/-- The keys of the clock. -/
def clockKeys : List String := ["speed", "spispeed"]

/-- Why an option is refused, if it is. -/
def objection? (o : String × String) : Option OptionError :=
  if o.1 ∈ clockKeys then if (clockOfText? o.2).isSome then none else some (.clock o.1 o.2)
  else if o.1 = "mode" then if (modeOfText? o.2).isSome then none else some (.mode o.2)
  else none

namespace Settings
variable {options order : List (String × String)} {s : Settings}

/-- The settings of the last option of each kind. -/
def ofLast (options : List (String × String)) : Settings where
  device := (lastUnder ["dev"] options).getD ""
  clockHz := ((lastUnder clockKeys options).bind clockOfText?).getD 2000000
  mode := ((lastUnder ["mode"] options).bind modeOfText?).getD .mode0

theorem withOption_ofLast (options : List (String × String)) (o : String × String) :
    (ofLast options).withOption o.1 o.2 = (objection? o).elim (.ok (ofLast (options ++ [o]))) .error := by
  obtain ⟨key, value⟩ := o
  simp only [withOption, objection?, ofLast, lastUnder_concat, clockKeys, List.mem_cons, List.not_mem_nil,
    or_false]
  by_cases hdev : key = "dev"
  · simp [hdev]
  by_cases hclock : key = "speed" ∨ key = "spispeed"
  · have hmode : key ≠ "mode" := by
      rcases hclock with rfl | rfl <;> decide
    cases hread : clockOfText? value <;> simp [hdev, hclock, hmode, hread]
  by_cases hmode : key = "mode"
  · cases hread : modeOfText? value <;> simp [hmode, hread]
  · simp [hdev, hclock, hmode]

theorem ofOptions_eq_judge (options : List (String × String)) :
    ofOptions options = judge objection? ofLast (fun s => s.device = "") .deviceMissing options := by
  refine foldlM_bind_eq_judge (fun (s : Settings) o => s.withOption o.1 o.2) withOption_ofLast
    (fun s => ?_) options
  split <;> rfl

theorem ofOptions_eq_ok_iff :
    ofOptions options = .ok s ↔
      (∀ o ∈ options, objection? o = none) ∧ (ofLast options).device ≠ "" ∧ s = ofLast options := by
  rw [ofOptions_eq_judge, judge_eq_ok_iff]

theorem exists_ofOptions_iff :
    (∃ s, ofOptions options = .ok s) ↔ (∀ o ∈ options, objection? o = none) ∧ (ofLast options).device ≠ "" := by
  simp only [ofOptions_eq_judge, exists_judge_iff, ne_eq]

/-! ### Order -/

/-- If the options give a clock under both its keys, it is one clock. -/
def OneClock (options : List (String × String)) : Prop :=
  ∀ v w, ("speed", v) ∈ options → ("spispeed", w) ∈ options → clockOfText? v = clockOfText? w

theorem clockOfText?_isSome {o : String × String} (hkey : o.1 ∈ clockKeys) (h : objection? o = none) :
    ∃ clockHz, clockOfText? o.2 = some clockHz := by
  rw [objection?, if_pos hkey] at h
  cases hread : clockOfText? o.2 with
  | some clockHz => exact ⟨clockHz, rfl⟩
  | none => simp [hread] at h

section
variable (hkeys : (options.map Prod.fst).Nodup) (hperm : order.Perm options)
include hkeys hperm

theorem device_ofLast_of_perm : (ofLast order).device = (ofLast options).device :=
  congrArg (Option.getD · "") (lastUnder_of_perm hkeys hperm "dev")

theorem mode_ofLast_of_perm : (ofLast order).mode = (ofLast options).mode :=
  congrArg (fun value => (value.bind modeOfText?).getD .mode0) (lastUnder_of_perm hkeys hperm "mode")

theorem clockHz_ofLast_of_perm (hone : OneClock options) :
    (ofLast order).clockHz = (ofLast options).clockHz := by
  refine congrArg (Option.getD · 2000000) (bind_lastUnder_of_perm hperm ?_)
  rintro ⟨key, v⟩ ho ⟨key', w⟩ ho' hkey hkey'
  by_cases hsame : key = key'
  · rw [List.inj_on_of_nodup_map hkeys ho ho' hsame]
  · simp only [clockKeys, List.mem_cons, List.not_mem_nil, or_false] at hkey hkey'
    rcases hkey with rfl | rfl <;> rcases hkey' with rfl | rfl
    · exact absurd rfl hsame
    · exact hone v w ho ho'
    · exact (hone w v ho' ho).symm
    · exact absurd rfl hsame

theorem ofLast_of_perm (hone : OneClock options) : ofLast order = ofLast options := by
  rw [Settings.mk.injEq]
  exact ⟨device_ofLast_of_perm hkeys hperm, clockHz_ofLast_of_perm hkeys hperm hone,
    mode_ofLast_of_perm hkeys hperm⟩

theorem exists_ofOptions_of_perm : (∃ t, ofOptions order = .ok t) ↔ ∃ s, ofOptions options = .ok s := by
  rw [exists_ofOptions_iff, exists_ofOptions_iff, device_ofLast_of_perm hkeys hperm]
  simp only [hperm.mem_iff]

end

/-- If every order of the options makes the same settings, each clock among them is that of the settings, for it
    can come last. -/
theorem clock_of_every_order (h : ∀ order, order.Perm options → ofOptions order = .ok s) {o : String × String}
    (ho : o ∈ options) (hkey : o.1 ∈ clockKeys) : clockOfText? o.2 = some s.clockHz := by
  have hgood := (ofOptions_eq_ok_iff.mp (h options (List.Perm.refl options))).1
  obtain ⟨clockHz, hread⟩ := clockOfText?_isSome hkey (hgood o ho)
  obtain ⟨order, hperm, hlast⟩ := exists_perm_lastUnder ho hkey
  obtain ⟨-, -, heq⟩ := ofOptions_eq_ok_iff.mp (h order hperm)
  rw [heq, ofLast, hlast, Option.bind_some, hread, Option.getD_some]

/-- Options with distinct keys are accepted in every order or in none, and make settings with one device and
    one mode. They make the same settings in every order exactly if they do not give two clocks. -/
theorem ofOptions_any_order (hkeys : (options.map Prod.fst).Nodup) :
    (∀ order, order.Perm options → ((∃ t, ofOptions order = .ok t) ↔ ∃ s, ofOptions options = .ok s)) ∧
      ∀ s, ofOptions options = .ok s →
        (∀ order t, order.Perm options → ofOptions order = .ok t → t.device = s.device ∧ t.mode = s.mode) ∧
          ((∀ order, order.Perm options → ofOptions order = .ok s) ↔ OneClock options) := by
  refine ⟨fun order hperm => exists_ofOptions_of_perm hkeys hperm, fun s hs => ⟨?_, ?_, ?_⟩⟩
  · intro order t hperm ht
    obtain ⟨-, -, rfl⟩ := ofOptions_eq_ok_iff.mp hs
    obtain ⟨-, -, rfl⟩ := ofOptions_eq_ok_iff.mp ht
    exact ⟨device_ofLast_of_perm hkeys hperm, mode_ofLast_of_perm hkeys hperm⟩
  · intro hall v w hv hw
    have hspeed := clock_of_every_order hall hv List.mem_cons_self
    have hspispeed := clock_of_every_order hall hw (List.mem_cons_of_mem _ List.mem_cons_self)
    exact hspeed.trans hspispeed.symm
  · intro hone order hperm
    obtain ⟨t, ht⟩ := (exists_ofOptions_of_perm hkeys hperm).mpr ⟨s, hs⟩
    obtain ⟨-, -, rfl⟩ := ofOptions_eq_ok_iff.mp hs
    obtain ⟨-, -, rfl⟩ := ofOptions_eq_ok_iff.mp ht
    rw [ht, ofLast_of_perm hkeys hperm hone]

/-- Options that give the clock once. -/
def steady : List (String × String) := [("dev", "/dev/spidev0.0"), ("speed", "1000"), ("mode", "3")]

theorem ofOptions_any_order_steady :
    (steady.map Prod.fst).Nodup ∧
      ∀ order, order.Perm steady → ofOptions order = .ok ⟨"/dev/spidev0.0", 1000000, .mode3⟩ := by
  have hkeys : (steady.map Prod.fst).Nodup := by decide
  have hone : OneClock steady := by
    intro v w _ hw
    simp [steady] at hw
  exact ⟨hkeys, (((ofOptions_any_order hkeys).2 _ (by decide +kernel)).2).mpr hone⟩

/-- Options with a clock under each of its keys. -/
def twoClocks : List (String × String) := [("dev", "/dev/spidev0.0"), ("speed", "1000"), ("spispeed", "2000")]

/-- The order of its options decides between its clocks. -/
theorem ofOptions_twoClocks :
    (twoClocks.map Prod.fst).Nodup ∧ ofOptions twoClocks = .ok ⟨"/dev/spidev0.0", 2000000, .mode0⟩ ∧
      ofOptions twoClocks.reverse = .ok ⟨"/dev/spidev0.0", 1000000, .mode0⟩ := by
  decide +kernel

end Settings

end EtherSwitch.Spidev
