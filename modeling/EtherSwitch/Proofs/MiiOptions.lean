import EtherSwitch.Linux.Mii
import EtherSwitch.Proofs.Numerals
import EtherSwitch.Proofs.OptionLists

/-! The settings of an MDIO bus that options make: the last interface and the last PHY, unless a PHY is no
    address on the bus or the interface has no name (`Settings.reading_options`). Options with distinct keys
    make the same of it in every order (`Settings.ofOptions_of_perm`). -/

namespace EtherSwitch.Mii

/-- The text is a number: a decimal numeral, or a hexadecimal one after one mark. -/
def IsNumber (text : String) (n : Nat) : Prop :=
  Numeral.Spells 10 text.toList n ∨
    ∃ digits, (text.toList = '0' :: 'x' :: digits ∨ text.toList = '0' :: 'X' :: digits) ∧
      Numeral.Spells 16 digits n

/-- The text is an address on an MDIO bus. -/
def IsPhy (text : String) (n : Nat) : Prop := IsNumber text n ∧ n ≤ 31

/-- What reading options gives, told by the last option of each kind and by the first PHY that is no address. -/
structure Settings.Reading (options : List (String × String))
    (result : Except OptionError Settings) : Prop where
  accepted : (∃ s, result = .ok s) ↔
    (∀ text, ("phy", text) ∈ options → ∃ n, IsPhy text n) ∧
      ∃ name, lastUnder ["iface"] options = some name ∧ name ≠ ""
  interface : ∀ s, result = .ok s → lastUnder ["iface"] options = some s.interface
  phy : ∀ s, result = .ok s →
    match lastUnder ["phy"] options with
    | some text => IsPhy text s.phy.toNat
    | none => s.phy = 0x1e
  noNumber : ∀ front text rest, options = front ++ ("phy", text) :: rest →
    (∀ text', ("phy", text') ∈ front → ∃ n, IsPhy text' n) → (¬∃ n, IsNumber text n ∧ n < 256) →
      result = .error (.phy text)
  tooHigh : ∀ front text rest n, options = front ++ ("phy", text) :: rest →
    (∀ text', ("phy", text') ∈ front → ∃ n, IsPhy text' n) → IsNumber text n → 31 < n → n < 256 →
      result = .error (.phyOutOfRange n)
  interfaceless : result = .error .interfaceMissing ↔
    (∀ text, ("phy", text) ∈ options → ∃ n, IsPhy text n) ∧
      ¬∃ name, lastUnder ["iface"] options = some name ∧ name ≠ ""

/-! ### Numbers -/

/-- What starts with a mark is no decimal numeral. -/
theorem not_spells_marked {c : Char} (hmark : c = 'x' ∨ c = 'X') (digits : List Char) (n : Nat) :
    ¬Numeral.Spells 10 ('0' :: c :: digits) n := by
  intro h
  obtain ⟨d, hd⟩ := h.digit_of_mem List.mem_cons_self
  have hdigit := (Numeral.digit?_eq_some_iff (by decide)).mpr hd
  rcases hmark with rfl | rfl <;> cases hdigit

theorem byteOfText?_eq_some_iff {text : String} {n : Nat} :
    byteOfText? text = some n ↔ IsNumber text n ∧ n < 256 := by
  unfold byteOfText? IsNumber
  split
  next digits htext =>
    rw [htext, Numeral.parse?_eq_some_iff_spells (by decide)]
    have hdecimal := not_spells_marked (Or.inl rfl) digits n
    simp [hdecimal, UInt8.size]
  next digits htext =>
    rw [htext, Numeral.parse?_eq_some_iff_spells (by decide)]
    have hdecimal := not_spells_marked (Or.inr rfl) digits n
    simp [hdecimal, UInt8.size]
  next hlower hupper =>
    rw [Numeral.parse?_eq_some_iff_spells (by decide)]
    have hmarked : ¬∃ digits, (text.toList = '0' :: 'x' :: digits ∨ text.toList = '0' :: 'X' :: digits) ∧
        Numeral.Spells 16 digits n := by
      rintro ⟨digits, htext | htext, -⟩
      · exact hlower digits htext
      · exact hupper digits htext
    simp only [hmarked, or_false, UInt8.size]

/-! ### Options -/

/-- Why a PHY is refused, if it is. -/
def phyObjection? (text : String) : Option OptionError :=
  match byteOfText? text with
  | some n => if 31 < n then some (.phyOutOfRange n) else none
  | none => some (.phy text)

/-- Why an option is refused, if it is. -/
def objection? (o : String × String) : Option OptionError := if o.1 = "phy" then phyObjection? o.2 else none

theorem phyObjection?_eq_none_iff {text : String} : phyObjection? text = none ↔
    ∃ n, byteOfText? text = some n ∧ n ≤ 31 := by
  unfold phyObjection?
  cases byteOfText? text <;> simp

theorem exists_isPhy_iff {text : String} : (∃ n, IsPhy text n) ↔ ∃ n, byteOfText? text = some n ∧ n ≤ 31 := by
  simp only [byteOfText?_eq_some_iff, IsPhy]
  refine exists_congr fun n => and_congr_left fun hle => ⟨fun hnumber => ⟨hnumber, by omega⟩, And.left⟩

theorem objections_eq_none_iff {options : List (String × String)} :
    (∀ o ∈ options, objection? o = none) ↔ ∀ text, ("phy", text) ∈ options → ∃ n, IsPhy text n := by
  simp only [exists_isPhy_iff, ← phyObjection?_eq_none_iff]
  constructor
  · intro h text ho
    exact (if_pos rfl).symm.trans (h _ ho)
  · rintro h ⟨key, text⟩ ho
    by_cases hkey : key = "phy"
    · subst hkey
      exact (if_pos rfl).trans (h text ho)
    · exact if_neg hkey

theorem objection?_ne_interfaceMissing (o : String × String) : objection? o ≠ some .interfaceMissing := by
  simp only [objection?, phyObjection?]
  repeat' split
  all_goals simp

namespace Settings
variable {options order : List (String × String)} {s : Settings}

/-- The settings of the last option of each kind. -/
def ofLast (options : List (String × String)) : Settings where
  interface := (lastUnder ["iface"] options).getD ""
  phy := ((lastUnder ["phy"] options).bind fun text => (byteOfText? text).map UInt8.ofNat).getD 0x1e

theorem withOption_ofLast (options : List (String × String)) (o : String × String) :
    (ofLast options).withOption o.1 o.2 = (objection? o).elim (.ok (ofLast (options ++ [o]))) .error := by
  obtain ⟨key, value⟩ := o
  simp only [withOption, objection?, phyObjection?, ofLast, lastUnder_concat, List.mem_singleton]
  by_cases hiface : key = "iface"
  · simp [hiface]
  by_cases hphy : key = "phy"
  · cases hread : byteOfText? value with
    | none => simp [hphy, hread]
    | some n => by_cases hhigh : 31 < n <;> simp [hphy, hread, hhigh, maxPhy]
  · simp [hiface, hphy]

theorem ofOptions_eq_judge (options : List (String × String)) :
    ofOptions options = judge objection? ofLast (fun s => s.interface = "") .interfaceMissing options := by
  refine foldlM_bind_eq_judge (fun (s : Settings) o => s.withOption o.1 o.2) withOption_ofLast
    (fun s => ?_) options
  split <;> rfl

theorem ofLast_interface_ne_iff :
    (ofLast options).interface ≠ "" ↔ ∃ name, lastUnder ["iface"] options = some name ∧ name ≠ "" :=
  lastUnder_getD_ne_iff

theorem phy_of_ofOptions (h : ofOptions options = .ok s) :
    match lastUnder ["phy"] options with
    | some text => IsPhy text s.phy.toNat
    | none => s.phy = 0x1e := by
  rw [ofOptions_eq_judge, judge_eq_ok_iff, objections_eq_none_iff] at h
  obtain ⟨hgood, -, rfl⟩ := h
  cases hlast : lastUnder ["phy"] options with
  | none =>
    rw [ofLast, hlast]
    rfl
  | some text =>
    obtain ⟨⟨key, _⟩, ho, hkey, rfl⟩ := mem_of_lastUnder hlast
    obtain rfl := List.mem_singleton.mp hkey
    obtain ⟨n, hread, hle⟩ := exists_isPhy_iff.mp (hgood _ ho)
    have hphy : (UInt8.ofNat n).toNat = n := UInt8.toNat_ofNat_of_lt' (show n < 256 by omega)
    rw [ofLast, hlast, Option.bind_some, hread, Option.map_some, Option.getD_some, hphy]
    exact ⟨(byteOfText?_eq_some_iff.mp hread).1, hle⟩

theorem reading_options (options : List (String × String)) : Reading options (ofOptions options) where
  accepted := by
    simp only [ofOptions_eq_judge, exists_judge_iff, objections_eq_none_iff, ← ofLast_interface_ne_iff, ne_eq]
  interface s hs := by
    rw [ofOptions_eq_judge, judge_eq_ok_iff] at hs
    obtain ⟨-, hinterface, rfl⟩ := hs
    obtain ⟨name, hlast, -⟩ := ofLast_interface_ne_iff.mp hinterface
    rw [ofLast, hlast, Option.getD_some]
  phy s hs := phy_of_ofOptions hs
  noNumber front text rest hoptions hfront hnumber := by
    have hread : byteOfText? text = none :=
      Option.eq_none_iff_forall_ne_some.mpr fun n hread => hnumber ⟨n, byteOfText?_eq_some_iff.mp hread⟩
    rw [hoptions, ofOptions_eq_judge]
    refine judge_of_first (objections_eq_none_iff.mpr hfront) ?_
    rw [objection?, if_pos rfl, phyObjection?, hread]
  tooHigh front text rest n hoptions hfront hnumber hhigh hlt := by
    rw [hoptions, ofOptions_eq_judge]
    refine judge_of_first (objections_eq_none_iff.mpr hfront) ?_
    rw [objection?, if_pos rfl, phyObjection?, byteOfText?_eq_some_iff.mpr ⟨hnumber, hlt⟩]
    exact if_pos hhigh
  interfaceless := by
    rw [ofOptions_eq_judge, judge_eq_missing_iff objection?_ne_interfaceMissing, objections_eq_none_iff,
      ← ofLast_interface_ne_iff, not_not]

/-- Options with distinct keys come to the same in every order. -/
theorem ofOptions_of_perm (hkeys : (options.map Prod.fst).Nodup) (hperm : order.Perm options) :
    ofOptions order = ofOptions options := by
  -- Only a PHY is ever refused, and among distinct keys there is one at most.
  have hone : ∀ o ∈ options, ∀ o' ∈ options, ∀ e e', objection? o = some e →
      objection? o' = some e' → e = e' := by
    intro o ho o' ho' e e' he he'
    have hphy : ∀ {o : String × String} {e : OptionError}, objection? o = some e →
        o.1 = "phy" := fun {o e} he => by
      by_contra hkey
      rw [objection?, if_neg hkey] at he
      cases he
    obtain rfl := List.inj_on_of_nodup_map hkeys ho ho' ((hphy he).trans (hphy he').symm)
    exact Option.some.inj (he.symm.trans he')
  have hlast : ofLast order = ofLast options := by
    rw [ofLast, ofLast, lastUnder_of_perm hkeys hperm, lastUnder_of_perm hkeys hperm]
  rw [ofOptions_eq_judge, ofOptions_eq_judge, judge, judge, findSome?_of_perm hperm hone, hlast]

end Settings

end EtherSwitch.Mii
