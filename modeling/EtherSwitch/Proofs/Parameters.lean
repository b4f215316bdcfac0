import EtherSwitch.Transport.Params
import EtherSwitch.Text.Numeral
import Mathlib.Data.List.TakeWhile
import Mathlib.Data.Nat.Digits.Defs

/-! Transport strings and numerals. A transport string is cut at its first colon, then at commas and each
    piece at its first equals sign; a piece that has none is refused, and the last piece with a key gives the
    key its value (`optionsOfText_eq`, `option?_takeAll`). A numeral stands for the number that its digits make
    (`parse?_eq_some_iff`). -/

namespace EtherSwitch

/-! ### Numerals -/

namespace Numeral

/-- The digits stand for these values. -/
def ReadAs (radix : Nat) (digits : List Char) (values : List Nat) : Prop :=
  digits.map (digit? radix) = values.map some

/-- The text is a numeral for `n`: after at most one plus sign there are digits, at least
    one, the highest first. -/
def Denotes (radix : Nat) (text : List Char) (n : Nat) : Prop :=
  ∃ digits values, (text = digits ∨ text = '+' :: digits) ∧ digits ≠ [] ∧ ReadAs radix digits values ∧
    n = Nat.ofDigits radix values.reverse

theorem readAs_cons {radix : Nat} {c : Char} {digits : List Char} {values : List Nat} :
    ReadAs radix (c :: digits) values ↔
      ∃ d more, digit? radix c = some d ∧ ReadAs radix digits more ∧ values = d :: more := by
  cases values with
  | nil => simp [ReadAs]
  | cons d more =>
    simp only [ReadAs, List.map_cons, List.cons.injEq]
    constructor
    · rintro ⟨hd, hmore⟩
      exact ⟨d, more, hd, hmore, rfl, rfl⟩
    · rintro ⟨_, _, hd, hmore, rfl, rfl⟩
      exact ⟨hd, hmore⟩

theorem digitsFrom?_eq_some_iff {radix n m : Nat} {digits : List Char} :
    digitsFrom? radix n digits = some m ↔
      ∃ values, ReadAs radix digits values ∧ m = values.foldl (fun n d => n * radix + d) n := by
  induction digits generalizing n with
  | nil =>
    constructor
    · rintro h
      exact ⟨[], rfl, (Option.some.inj h).symm⟩
    · rintro ⟨values, hread, rfl⟩
      obtain rfl := List.map_eq_nil_iff.mp hread.symm
      rfl
  | cons c digits ih =>
    rw [digitsFrom?, Option.bind_eq_bind, Option.bind_eq_some_iff]
    constructor
    · rintro ⟨d, hd, hrest⟩
      obtain ⟨more, hmore, rfl⟩ := ih.mp hrest
      exact ⟨d :: more, readAs_cons.mpr ⟨d, more, hd, hmore, rfl⟩, rfl⟩
    · rintro ⟨_, hread, rfl⟩
      obtain ⟨d, more, hd, hmore, rfl⟩ := readAs_cons.mp hread
      exact ⟨d, hd, ih.mpr ⟨more, hmore, rfl⟩⟩

theorem digits?_eq_some_iff {radix n : Nat} {digits : List Char} :
    digits? radix digits = some n ↔
      digits ≠ [] ∧ ∃ values, ReadAs radix digits values ∧ n = Nat.ofDigits radix values.reverse := by
  have hvalue : ∀ values : List Nat, values.foldl (fun n d => n * radix + d) 0 =
      Nat.ofDigits radix values.reverse := by
    intro values
    rw [Nat.ofDigits_eq_foldr, List.foldr_reverse]
    simp only [Nat.cast_id, Nat.mul_comm, Nat.add_comm]
  cases digits with
  | nil => simp [digits?]
  | cons c digits =>
    simp only [digits?, digitsFrom?_eq_some_iff, hvalue, ne_eq, reduceCtorEq, not_false_eq_true, true_and]

theorem parse?_eq_some_iff {radix bound n : Nat} {text : List Char} :
    parse? radix bound text = some n ↔ Denotes radix text n ∧ n < bound := by
  have hbound : ∀ number? : Option Nat, number?.filter (· < bound) = some n ↔
      number? = some n ∧ n < bound := fun number? => by
    simp [Option.filter_eq_some_iff]
  unfold parse?
  rw [hbound]
  refine and_congr_left' ?_
  split
  next rest =>
    rw [digits?_eq_some_iff]
    constructor
    · rintro ⟨hsome, values, hread, hn⟩
      exact ⟨rest, values, Or.inr rfl, hsome, hread, hn⟩
    · rintro ⟨digits, values, rfl | hsign, hsome, hread, hn⟩
      · -- A plus sign is no digit.
        obtain ⟨d, _, hplus, -⟩ := readAs_cons.mp hread
        cases hplus
      · obtain rfl := (List.cons.inj hsign).2
        exact ⟨hsome, values, hread, hn⟩
  next hunsigned =>
    rw [digits?_eq_some_iff]
    constructor
    · rintro ⟨hsome, values, hread, hn⟩
      exact ⟨text, values, Or.inl rfl, hsome, hread, hn⟩
    · rintro ⟨digits, values, rfl | hsign, hsome, hread, hn⟩
      · exact ⟨hsome, values, hread, hn⟩
      · exact (hunsigned digits hsign).elim

end Numeral

namespace Transport

/-! ### Cutting -/

/-- The text before the first `sep`, or all of it. -/
def before (sep : Char) (text : List Char) : List Char := text.takeWhile (· ≠ sep)

/-- The text after the first `sep`, if there is one. -/
def behind (sep : Char) (text : List Char) : List Char := (text.dropWhile (· ≠ sep)).tail

theorem cut?_eq (sep : Char) (text : List Char) :
    cut? sep text = if sep ∈ text then some (before sep text, behind sep text) else none := by
  induction text with
  | nil => rfl
  | cons c rest ih =>
    by_cases h : c = sep
    · simp [cut?, before, behind, h]
    · rw [cut?, if_neg h, ih]
      by_cases hrest : sep ∈ rest
      · simp [before, behind, h, hrest]
      · simp [hrest, Ne.symm h]

section
variable {sep : Char} {text : List Char} (h : sep ∉ text)
include h

theorem before_of_not_mem : before sep text = text :=
  List.takeWhile_eq_self_iff.mpr fun _ hc => decide_eq_true (ne_of_mem_of_not_mem hc h)

theorem behind_of_not_mem : behind sep text = [] := by
  rw [behind, List.dropWhile_eq_nil_iff.mpr fun _ hc => decide_eq_true (ne_of_mem_of_not_mem hc h)]
  rfl

end

theorem cut?_getD (sep : Char) (text : List Char) :
    (cut? sep text).getD (text, []) = (before sep text, behind sep text) := by
  rw [cut?_eq]
  by_cases h : sep ∈ text
  · rw [if_pos h, Option.getD_some]
  · rw [if_neg h, Option.getD_none, before_of_not_mem h, behind_of_not_mem h]

theorem pieces_eq_splitOn (sep : Char) (text : List Char) : pieces sep text = text.splitOn sep := by
  induction text with
  | nil => rfl
  | cons c rest ih =>
    rw [pieces, ih, List.splitOn, List.splitOn, List.splitOnP_cons_eq_if_modifyHead]
    by_cases h : c = sep
    · simp [h]
    · rw [if_neg h, if_neg (by simpa using h)]
      cases hsplit : rest.splitOnP (· == sep) with
      | nil => exact absurd hsplit (List.splitOnP_ne_nil _ _)
      | cons piece more => rfl

/-! ### Options -/

/-- The pieces that hold the options of a transport string. -/
def optionPieces (text : List Char) : List (List Char) :=
  if behind ':' text = [] then [] else (behind ':' text).splitOn ','

/-- The first piece that is no option. -/
def malformed? (pieces : List (List Char)) : Option (List Char) := pieces.find? fun p => '=' ∉ p

/-- The value that the last piece with the key gives it. -/
def lastValue (key : String) (pieces : List (List Char)) : Option String :=
  (pieces.reverse.find? fun p => String.ofList (before '=' p) = key).map fun p => String.ofList (behind '=' p)

/-- The options with those of some more pieces. -/
def takeAll (options : List (String × String)) (pieces : List (List Char)) : List (String × String) :=
  pieces.foldl (fun options p => putOption options (String.ofList (before '=' p))
    (String.ofList (behind '=' p))) options

theorem lastValue_cons (key : String) (p : List Char) (pieces : List (List Char)) :
    lastValue key (p :: pieces) =
      (lastValue key pieces).or
        (if String.ofList (before '=' p) = key then some (String.ofList (behind '=' p)) else none) := by
  rw [lastValue, List.reverse_cons, List.find?_append, Option.map_or, List.find?_singleton]
  by_cases h : String.ofList (before '=' p) = key <;> simp [h, lastValue]

theorem option?_takeAll (key : String) (options : List (String × String)) (pieces : List (List Char)) :
    option? (takeAll options pieces) key = (lastValue key pieces).or (option? options key) := by
  induction pieces generalizing options with
  | nil => rfl
  | cons p pieces ih =>
    rw [takeAll, List.foldl_cons, ← takeAll, ih, lastValue_cons, Option.or_assoc]
    congr 1
    by_cases h : String.ofList (before '=' p) = key
    · rw [if_pos h, h, option?_putOption_self]
      rfl
    · rw [if_neg h, option?_putOption_of_ne _ _ (Ne.symm h), Option.none_or]

theorem foldlM_addPiece (options : List (String × String)) (pieces : List (List Char)) :
    pieces.foldlM addPiece options =
      match malformed? pieces with
      | some p => .error (.malformedOption (String.ofList p))
      | none => .ok (takeAll options pieces) := by
  induction pieces generalizing options with
  | nil => rfl
  | cons p pieces ih =>
    rw [List.foldlM_cons, addPiece, cut?_eq, malformed?, List.find?_cons]
    by_cases h : '=' ∈ p
    · simp only [h, if_true, not_true, decide_false]
      exact ih _
    · simp only [h, if_false, not_false_eq_true, decide_true]
      rfl

theorem optionsOfText_eq (text : List Char) :
    optionsOfText (behind ':' text) =
      match malformed? (optionPieces text) with
      | some p => .error (.malformedOption (String.ofList p))
      | none => .ok (takeAll [] (optionPieces text)) := by
  rw [optionsOfText, optionPieces]
  by_cases h : behind ':' text = []
  · rw [if_pos h, if_pos h]
    rfl
  · rw [if_neg h, if_neg h, pieces_eq_splitOn, foldlM_addPiece]

theorem ofText_eq (text : String) :
    Params.ofText text =
      if before ':' text.toList = [] then .error .noTransport
      else
        match malformed? (optionPieces text.toList) with
        | some p => .error (.malformedOption (String.ofList p))
        | none => .ok ⟨String.ofList (before ':' text.toList), takeAll [] (optionPieces text.toList)⟩ := by
  rw [Params.ofText, cut?_getD]
  by_cases h : before ':' text.toList = []
  · simp only [if_pos h]
    rfl
  · simp only [if_neg h, optionsOfText_eq]
    cases malformed? (optionPieces text.toList) <;> rfl

end Transport

end EtherSwitch
