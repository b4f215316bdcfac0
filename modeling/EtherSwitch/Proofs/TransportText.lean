import EtherSwitch.Proofs.Parameters

/-! The grammar of transport strings. A text is read exactly if a name stands before its first colon and every
    piece behind it has an equals sign, and what is read can be told by the pieces (`Reading`). Options that are
    written out are read back, in whatever order they were written (`ofText_grammar`). -/

namespace EtherSwitch.Transport

/-! ### Texts put together -/

section
variable {sep : Char} {front : List Char} (h : sep ∉ front) (rest : List Char)
include h

theorem before_append : before sep (front ++ sep :: rest) = front := by
  rw [before, List.takeWhile_append_of_pos fun c hc => decide_eq_true (ne_of_mem_of_not_mem hc h),
    List.takeWhile_cons_of_neg (by simp), List.append_nil]

theorem behind_append : behind sep (front ++ sep :: rest) = rest := by
  rw [behind, List.dropWhile_append_of_pos fun c hc => decide_eq_true (ne_of_mem_of_not_mem hc h),
    List.dropWhile_cons_of_neg (by simp), List.tail_cons]

end

/-- An option as it is written. -/
def optionText (o : String × String) : List Char := o.1.toList ++ '=' :: o.2.toList

/-- A transport string with its options written in the given order. -/
def paramsText (name : String) (options : List (String × String)) : String :=
  String.ofList (name.toList ++ ':' :: [','].intercalate (options.map optionText))

/-- The name and the options can be written: none holds a character that ends it. -/
structure Writable (name : String) (options : List (String × String)) : Prop where
  name_ne : name ≠ ""
  name_colon : ':' ∉ name.toList
  keys_nodup : (options.map Prod.fst).Nodup
  key_plain : ∀ o ∈ options, ',' ∉ o.1.toList ∧ '=' ∉ o.1.toList
  value_plain : ∀ o ∈ options, ',' ∉ o.2.toList

theorem Writable.of_perm {name : String} {options order : List (String × String)} (h : Writable name options)
    (hperm : order.Perm options) : Writable name order where
  name_ne := h.name_ne
  name_colon := h.name_colon
  keys_nodup := (hperm.map Prod.fst).nodup_iff.mpr h.keys_nodup
  key_plain o ho := h.key_plain o (hperm.subset ho)
  value_plain o ho := h.value_plain o (hperm.subset ho)

/-! ### Options by their keys -/

theorem keys_putOption (options : List (String × String)) (key value : String) :
    (putOption options key value).map Prod.fst =
      if key ∈ options.map Prod.fst then options.map Prod.fst else options.map Prod.fst ++ [key] := by
  induction options with
  | nil => rfl
  | cons o options ih =>
    obtain ⟨k, v⟩ := o
    by_cases hk : k = key
    · simp [putOption, hk]
    · simp only [putOption, if_neg hk, List.map_cons, ih, List.mem_cons, Ne.symm hk, false_or]
      split <;> rfl

theorem putOption_of_not_mem {options : List (String × String)} {key : String} (h : key ∉ options.map Prod.fst)
    (value : String) : putOption options key value = options ++ [(key, value)] := by
  induction options with
  | nil => rfl
  | cons o options ih =>
    obtain ⟨k, v⟩ := o
    rw [List.map_cons, List.mem_cons, not_or] at h
    rw [putOption, if_neg (Ne.symm h.1), ih h.2, List.cons_append]

theorem nodup_putOption {options : List (String × String)} (h : (options.map Prod.fst).Nodup)
    (key value : String) :
    ((putOption options key value).map Prod.fst).Nodup := by
  rw [keys_putOption]
  split
  · exact h
  case isFalse hkey => exact (List.perm_append_singleton key _).nodup_iff.mpr (List.nodup_cons.mpr ⟨hkey, h⟩)

theorem nodup_takeAll (pieces : List (List Char)) {options : List (String × String)}
    (h : (options.map Prod.fst).Nodup) :
    ((takeAll options pieces).map Prod.fst).Nodup := by
  induction pieces generalizing options with
  | nil => exact h
  | cons p pieces ih => exact ih (nodup_putOption h _ _)

/-- Written options are read back after the options so far, if no key comes twice. -/
theorem takeAll_optionText {options more : List (String × String)}
    (hkeys : ((options ++ more).map Prod.fst).Nodup)
    (hplain : ∀ o ∈ more, '=' ∉ o.1.toList) : takeAll options (more.map optionText) = options ++ more := by
  induction more generalizing options with
  | nil => exact (List.append_nil options).symm
  | cons o more ih =>
    have ho := hplain o List.mem_cons_self
    have hfresh : o.1 ∉ options.map Prod.fst := by
      rw [List.map_append, List.map_cons] at hkeys
      exact fun hmem => (List.nodup_cons.mp (List.perm_middle.nodup_iff.mp hkeys)).1
        (List.mem_append_left _ hmem)
    rw [List.map_cons, takeAll, List.foldl_cons, ← takeAll, optionText, before_append ho, behind_append ho,
      String.ofList_toList, String.ofList_toList, putOption_of_not_mem hfresh]
    rw [List.append_cons] at hkeys
    rw [List.append_cons options o more]
    exact ih hkeys fun o' ho' => hplain o' (List.mem_cons_of_mem o ho')

theorem option?_eq_some_iff {options : List (String × String)} (hkeys : (options.map Prod.fst).Nodup)
    {key value : String} :
    option? options key = some value ↔ (key, value) ∈ options := by
  induction options with
  | nil => simp [option?]
  | cons o options ih =>
    obtain ⟨k, v⟩ := o
    obtain ⟨hfresh, hrest⟩ := List.nodup_cons.mp hkeys
    rw [option?, List.lookup_cons, List.mem_cons, ← ih hrest]
    by_cases hk : key = k
    · subst hk
      have hnone : option? options key ≠ some value := fun h =>
        hfresh (List.mem_map.mpr ⟨(key, value), (ih hrest).mp h, rfl⟩)
      simp [hnone, eq_comm]
    · simp [option?, hk, beq_eq_false_iff_ne.mpr hk]

theorem option?_of_perm {options order : List (String × String)} (hkeys : (options.map Prod.fst).Nodup)
    (hperm : order.Perm options) (key : String) : option? order key = option? options key := by
  refine Option.ext fun value => ?_
  rw [option?_eq_some_iff hkeys, option?_eq_some_iff ((hperm.map Prod.fst).nodup_iff.mpr hkeys), hperm.mem_iff]

/-! ### The grammar -/

/-- What reading a text gives, told by what stands before and behind its first colon. -/
structure Reading (text : List Char) (result : Except ParamsError Params) : Prop where
  accepted : (∃ p, result = .ok p) ↔
    before ':' text ≠ [] ∧ (behind ':' text = [] ∨ ∀ piece ∈ (behind ':' text).splitOn ',', '=' ∈ piece)
  content : ∀ p, result = .ok p →
    p.name = String.ofList (before ':' text) ∧ (p.options.map Prod.fst).Nodup ∧
      ∀ key, option? p.options key = lastValue key (optionPieces text)
  nameless : before ':' text = [] → result = .error .noTransport
  /-- The first piece without an equals sign is the one that is named. -/
  malformed : ∀ front piece rest, before ':' text ≠ [] → behind ':' text ≠ [] →
    (behind ':' text).splitOn ',' = front ++ piece :: rest → (∀ p ∈ front, '=' ∈ p) → '=' ∉ piece →
      result = .error (.malformedOption (String.ofList piece))

theorem malformed?_eq_none_iff {pieces : List (List Char)} :
    malformed? pieces = none ↔ ∀ p ∈ pieces, '=' ∈ p := by
  simp [malformed?, List.find?_eq_none]

theorem malformed?_of_first {front rest : List (List Char)} {piece : List Char} (hfront : ∀ p ∈ front, '=' ∈ p)
    (hpiece : '=' ∉ piece) : malformed? (front ++ piece :: rest) = some piece :=
  List.find?_eq_some_iff_append.mpr
    ⟨by simpa using hpiece, front, rest, rfl, fun p hp => by simpa using hfront p hp⟩

theorem forall_optionPieces {text : List Char} :
    (∀ p ∈ optionPieces text, '=' ∈ p) ↔ behind ':' text = [] ∨
      ∀ piece ∈ (behind ':' text).splitOn ',', '=' ∈ piece := by
  rw [optionPieces]
  by_cases h : behind ':' text = []
  · simp [h]
  · simp [h]

theorem reading_ofText (text : String) : Reading text.toList (Params.ofText text) := by
  rw [ofText_eq]
  by_cases hname : before ':' text.toList = []
  · rw [if_pos hname]
    exact ⟨by simp [hname], by simp, fun _ => rfl, fun _ _ _ h => absurd hname h⟩
  rw [if_neg hname]
  cases hmalformed : malformed? (optionPieces text.toList) with
  | none =>
    have hall := malformed?_eq_none_iff.mp hmalformed
    refine ⟨⟨fun _ => ⟨hname, forall_optionPieces.mp hall⟩, fun _ => ⟨_, rfl⟩⟩, ?_, fun h => absurd h hname, ?_⟩
    · rintro _ ⟨rfl⟩
      refine ⟨rfl, nodup_takeAll _ (by simp), fun key => ?_⟩
      rw [option?_takeAll]
      exact Option.or_none
    · intro front piece rest _ hrest hsplit _ hpiece
      rw [optionPieces, if_neg hrest, hsplit] at hall
      exact absurd (hall piece (List.mem_append_right front List.mem_cons_self)) hpiece
  | some found =>
    have hsome : ¬∀ p ∈ optionPieces text.toList, '=' ∈ p := by
      rw [← malformed?_eq_none_iff, hmalformed]
      exact Option.some_ne_none found
    refine ⟨⟨?_, fun h => absurd (forall_optionPieces.mpr h.2) hsome⟩, ?_, fun h => absurd h hname, ?_⟩
    · rintro ⟨_, ⟨⟩⟩
    · rintro _ ⟨⟩
    · intro front piece rest _ hrest hsplit hfront hpiece
      rw [optionPieces, if_neg hrest, hsplit, malformed?_of_first hfront hpiece] at hmalformed
      rw [Option.some.inj hmalformed]

/-! ### Writing and reading back -/

theorem optionPieces_paramsText {name : String} {options : List (String × String)} (h : Writable name options) :
    optionPieces (paramsText name options).toList = options.map optionText := by
  rw [optionPieces, paramsText, String.toList_ofList, behind_append h.name_colon]
  cases options with
  | nil => rfl
  | cons o options =>
    have hrest : [','].intercalate ((o :: options).map optionText) ≠ [] := by
      cases options <;> simp [optionText, List.intercalate]
    rw [if_neg hrest, List.splitOn_intercalate ',' ?_ (by simp)]
    rintro _ hpiece hcomma
    obtain ⟨o', ho', rfl⟩ := List.mem_map.mp hpiece
    rcases List.mem_append.mp hcomma with hkey | hvalue
    · exact (h.key_plain o' ho').1 hkey
    · rcases List.mem_cons.mp hvalue with heq | hvalue
      · exact absurd heq (by decide)
      · exact h.value_plain o' ho' hvalue

theorem ofText_paramsText {name : String} {options : List (String × String)} (h : Writable name options) :
    Params.ofText (paramsText name options) = .ok ⟨name, options⟩ := by
  have hname : before ':' (paramsText name options).toList = name.toList := by
    rw [paramsText, String.toList_ofList, before_append h.name_colon]
  have hsome : name.toList ≠ [] := fun hnil => h.name_ne (String.toList_eq_nil_iff.mp hnil)
  have hwritten : malformed? (options.map optionText) = none := by
    refine malformed?_eq_none_iff.mpr fun p hp => ?_
    obtain ⟨o, -, rfl⟩ := List.mem_map.mp hp
    exact List.mem_append_right _ List.mem_cons_self
  have hread : takeAll [] (options.map optionText) = options :=
    takeAll_optionText (by simpa using h.keys_nodup) fun o ho => (h.key_plain o ho).2
  rw [ofText_eq, hname, if_neg hsome, optionPieces_paramsText h, hwritten]
  show Except.ok (Params.mk (String.ofList name.toList) (takeAll [] (options.map optionText))) = _
  rw [String.ofList_toList, hread]

/-- A transport string without options may leave out the colon. -/
theorem ofText_name {name : String} (hsome : name ≠ "") (hcolon : ':' ∉ name.toList) :
    Params.ofText name = .ok ⟨name, []⟩ := by
  have hchars : name.toList ≠ [] := fun hnil => hsome (String.toList_eq_nil_iff.mp hnil)
  have hpieces : optionPieces name.toList = [] := by
    rw [optionPieces, behind_of_not_mem hcolon]
    rfl
  rw [ofText_eq, before_of_not_mem hcolon, if_neg hchars, hpieces]
  show Except.ok (Params.mk (String.ofList name.toList) []) = _
  rw [String.ofList_toList]

/-- Reading accepts exactly the grammar of transport strings, and gives back what is written in it: the name,
    and each key with its value, whatever the order of the options. -/
theorem ofText_grammar :
    (∀ text : String, Reading text.toList (Params.ofText text)) ∧
      ∀ {name : String} {options order : List (String × String)}, Writable name options → order.Perm options →
        (∀ text, text = paramsText name order ∨ (options = [] ∧ text = name) →
          Params.ofText text = .ok ⟨name, order⟩) ∧
          ∀ key, option? order key = option? options key := by
  refine ⟨reading_ofText, fun {name options order} h hperm => ⟨?_, option?_of_perm h.keys_nodup hperm⟩⟩
  rintro text (rfl | ⟨rfl, rfl⟩)
  · exact ofText_paramsText (h.of_perm hperm)
  · rw [hperm.eq_nil]
    exact ofText_name h.name_ne h.name_colon

/-- Options whose values hold the characters that keys and names may not. -/
def awkward : List (String × String) := [("dev", "/dev/spi=a:b"), ("", "7")]

theorem ofText_grammar_awkward :
    Writable "linux_spi" awkward ∧ awkward.reverse.Perm awkward ∧
      Params.ofText "linux_spi:=7,dev=/dev/spi=a:b" = .ok ⟨"linux_spi", awkward.reverse⟩ ∧
        option? awkward.reverse "dev" = some "/dev/spi=a:b" := by
  have hwritable : Writable "linux_spi" awkward := by
    constructor <;> decide
  have hperm : awkward.reverse.Perm awkward := List.reverse_perm awkward
  obtain ⟨hread, hlookup⟩ := ofText_grammar.2 hwritable hperm
  refine ⟨hwritable, hperm, hread _ (Or.inl (by decide +kernel)), ?_⟩
  rw [hlookup]
  decide

end EtherSwitch.Transport
