import EtherSwitch.Proofs.Parameters
import Mathlib.Data.List.Forall2

/-! The numerals that options hold, told by the characters of their digits (`Spells`). What is read as a
    number below a bound is exactly a numeral for it (`parse?_eq_some_iff_spells`), and behind the first
    character a numeral has nothing but digits (`Spells.digit_of_mem`). -/

namespace EtherSwitch.Numeral

/-- The digits up to hexadecimal, each at the place of its value. -/
def lowerDigits : List Char := ['0', '1', '2', '3', '4', '5', '6', '7', '8', '9', 'a', 'b', 'c', 'd', 'e', 'f']

def upperDigits : List Char := ['0', '1', '2', '3', '4', '5', '6', '7', '8', '9', 'A', 'B', 'C', 'D', 'E', 'F']

/-- The character is the digit of this value, be it written in lower or in upper case. -/
def IsDigit (radix : Nat) (c : Char) (d : Nat) : Prop :=
  d < radix ∧ (lowerDigits[d]? = some c ∨ upperDigits[d]? = some c)

/-- The text is a numeral for `n`: digits, at least one and the highest first, after at most one plus sign. -/
def Spells (radix : Nat) (text : List Char) (n : Nat) : Prop :=
  ∃ digits values, (text = digits ∨ text = '+' :: digits) ∧ digits ≠ [] ∧
    List.Forall₂ (IsDigit radix) digits values ∧
    n = Nat.ofDigits radix values.reverse

/-! ### Digits -/

theorem digit?_lowerDigits : ∀ d : Fin 16, lowerDigits[d.val]?.bind (digit? 16) = some d.val := by decide

theorem digit?_upperDigits : ∀ d : Fin 16, upperDigits[d.val]?.bind (digit? 16) = some d.val := by decide

theorem lowerDigits_number : ∀ d : Fin 10, lowerDigits[d.val]? = some (Char.ofNat (48 + d.val)) := by decide

theorem lowerDigits_letter : ∀ d : Fin 6, lowerDigits[d.val + 10]? = some (Char.ofNat (97 + d.val)) := by decide

theorem upperDigits_letter : ∀ d : Fin 6, upperDigits[d.val + 10]? = some (Char.ofNat (65 + d.val)) := by decide

/-- A smaller radix takes some of the digits away. -/
theorem digit?_of_le {radix : Nat} (hradix : radix ≤ 16) {c : Char} {d : Nat} :
    digit? radix c = some d ↔ digit? 16 c = some d ∧ d < radix := by
  simp only [digit?, Option.filter_eq_some_iff, decide_eq_true_eq]
  grind

theorem place_of_digit? {c : Char} {d : Nat} (h : digit? 16 c = some d) :
    lowerDigits[d]? = some c ∨ upperDigits[d]? = some c := by
  simp only [digit?, Option.filter_eq_some_iff, decide_eq_true_eq] at h
  obtain ⟨hvalue, hlt⟩ := h
  have hchar : ∀ base, base ≤ c.toNat → Char.ofNat (base + (c.toNat - base)) = c := fun base hbase => by
    rw [Nat.add_sub_cancel' hbase, Char.ofNat_toNat]
  -- The digits are three runs of characters: a place in a run is the value, but for where the run begins.
  split at hvalue
  case isTrue hnumber =>
    have hlow : 48 ≤ c.toNat := hnumber.1
    have hhigh : c.toNat ≤ 57 := hnumber.2
    obtain rfl : c.toNat - 48 = d := Option.some.inj hvalue
    rw [lowerDigits_number ⟨c.toNat - 48, by omega⟩, hchar 48 hlow]
    exact Or.inl rfl
  case isFalse =>
    split at hvalue
    case isTrue hletter =>
      have hlow : 97 ≤ c.toNat := hletter.1
      obtain rfl : c.toNat - 97 + 10 = d := Option.some.inj hvalue
      rw [lowerDigits_letter ⟨c.toNat - 97, by omega⟩, hchar 97 hlow]
      exact Or.inl rfl
    case isFalse =>
      split at hvalue
      case isTrue hletter =>
        have hlow : 65 ≤ c.toNat := hletter.1
        obtain rfl : c.toNat - 65 + 10 = d := Option.some.inj hvalue
        rw [upperDigits_letter ⟨c.toNat - 65, by omega⟩, hchar 65 hlow]
        exact Or.inr rfl
      case isFalse => cases hvalue

theorem digit?_eq_some_iff {radix : Nat} (hradix : radix ≤ 16) {c : Char} {d : Nat} :
    digit? radix c = some d ↔ IsDigit radix c d := by
  rw [digit?_of_le hradix]
  constructor
  · rintro ⟨hdigit, hlt⟩
    exact ⟨hlt, place_of_digit? hdigit⟩
  · rintro ⟨hlt, hplace | hplace⟩
    · have hdigit := digit?_lowerDigits ⟨d, by omega⟩
      rw [hplace] at hdigit
      exact ⟨hdigit, hlt⟩
    · have hdigit := digit?_upperDigits ⟨d, by omega⟩
      rw [hplace] at hdigit
      exact ⟨hdigit, hlt⟩

/-! ### Numerals -/

section
variable {radix : Nat} (hradix : radix ≤ 16)
include hradix

theorem readAs_iff {digits : List Char} {values : List Nat} :
    ReadAs radix digits values ↔ List.Forall₂ (IsDigit radix) digits values := by
  induction digits generalizing values with
  | nil => cases values <;> simp [ReadAs]
  | cons c digits ih =>
    simp only [readAs_cons, List.forall₂_cons_left_iff, digit?_eq_some_iff hradix, ih]

theorem parse?_eq_some_iff_spells {bound n : Nat} {text : List Char} :
    parse? radix bound text = some n ↔ Spells radix text n ∧ n < bound := by
  rw [parse?_eq_some_iff]
  simp only [Denotes, Spells, readAs_iff hradix]

end

/-- Behind its first character a numeral has digits only. -/
theorem Spells.digit_of_mem {radix n : Nat} {c c' : Char} {text : List Char} (h : Spells radix (c :: text) n)
    (hmem : c' ∈ text) : ∃ d, IsDigit radix c' d := by
  obtain ⟨digits, values, htext, -, hread, -⟩ := h
  -- The sign can only be the first character.
  have hdigit : c' ∈ digits := by
    rcases htext with rfl | htext
    · exact List.mem_cons_of_mem c hmem
    · exact (List.cons.inj htext).2 ▸ hmem
  obtain ⟨i, hi, rfl⟩ := List.getElem_of_mem hdigit
  exact ⟨_, (List.forall₂_iff_get.mp hread).2 i hi (hread.length_eq ▸ hi)⟩

end EtherSwitch.Numeral
