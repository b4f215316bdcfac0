import Mathlib.Data.List.Induction
import Mathlib.Data.List.Nodup

/-! Lists of options, each a key and its value, of which the last under a key counts. Settings that are read
    off the last options come out of a fold that takes one option after the other (`foldlM_bind_eq_judge`), and
    they depend on the order only where two options give one setting (`bind_lastUnder_of_perm`). -/

namespace EtherSwitch

variable {options order : List (String × String)} {keys : List String}

/-- The value of the last option under one of the keys. -/
def lastUnder (keys : List String) (options : List (String × String)) : Option String :=
  (options.reverse.find? fun o => o.1 ∈ keys).map Prod.snd

@[simp] theorem lastUnder_concat (keys : List String) (options : List (String × String)) (o : String × String) :
    lastUnder keys (options ++ [o]) = if o.1 ∈ keys then some o.2 else lastUnder keys options := by
  rw [lastUnder, List.reverse_append, List.reverse_singleton, List.singleton_append, List.find?_cons]
  by_cases h : o.1 ∈ keys
  · simp [h]
  · simp [h, lastUnder]

theorem mem_of_lastUnder {value : String} (h : lastUnder keys options = some value) :
    ∃ o ∈ options, o.1 ∈ keys ∧ o.2 = value := by
  obtain ⟨o, ho, rfl⟩ := Option.map_eq_some_iff.mp h
  exact ⟨o, List.mem_reverse.mp (List.mem_of_find?_eq_some ho), by simpa using List.find?_some ho, rfl⟩

theorem lastUnder_eq_none_iff : lastUnder keys options = none ↔ ∀ o ∈ options, o.1 ∉ keys := by
  rw [lastUnder, Option.map_eq_none_iff, List.find?_eq_none]
  simp only [List.mem_reverse, decide_eq_true_eq]

theorem lastUnder_getD_ne_iff {default : String} :
    (lastUnder keys options).getD default ≠ default ↔ ∃ value, lastUnder keys options = some value ∧
      value ≠ default := by
  cases lastUnder keys options <;> simp

/-- Options under other keys do not count. -/
theorem lastUnder_filter {p : String × String → Bool} (h : ∀ o, o.1 ∈ keys → p o = true)
    (options : List (String × String)) :
    lastUnder keys (options.filter p) = lastUnder keys options := by
  rw [lastUnder, ← List.filter_reverse, List.find?_filter, lastUnder]
  congr 2
  funext o
  by_cases hkey : o.1 ∈ keys
  · rw [h o hkey, decide_eq_true hkey, decide_eq_true (And.intro rfl rfl)]
  · simp [hkey]

/-- Options that are never objected to can be left out. -/
theorem findSome?_filter {ε : Type} {p : String × String → Bool} {objection? : String × String → Option ε}
    (h : ∀ o, p o = false → objection? o = none) (options : List (String × String)) :
    (options.filter p).findSome? objection? = options.findSome? objection? := by
  induction options with
  | nil => rfl
  | cons o options ih =>
    cases hp : p o with
    | true => rw [List.filter_cons_of_pos hp, List.findSome?_cons, List.findSome?_cons, ih]
    | false => rw [List.filter_cons_of_neg (by simp [hp]), List.findSome?_cons, h o hp, ih]

/-- A fold that either objects to an option or goes on with what the options so far make. -/
theorem foldlM_eq_of_concat {ε σ : Type} (step : σ → String × String → Except ε σ)
    (made : List (String × String) → σ) {objection? : String × String → Option ε}
    (h : ∀ options o, step (made options) o = (objection? o).elim (.ok (made (options ++ [o]))) .error)
    (options : List (String × String)) :
    options.foldlM step (made []) = (options.findSome? objection?).elim (.ok (made options)) .error := by
  induction options using List.reverseRecOn with
  | nil => rfl
  | append_singleton options o ih =>
    rw [List.foldlM_append, ih, List.findSome?_append]
    cases options.findSome? objection? with
    | some e => rfl
    | none =>
      show [o].foldlM step (made options) = _
      rw [List.foldlM_cons, h, Option.none_or, List.findSome?_singleton]
      cases objection? o <;> rfl

/-! ### What options come to -/

/-- What options come to: the first objection to one of them, or else what they make, unless that
    lacks something which has to be given. -/
def judge {ε σ : Type} (objection? : String × String → Option ε) (made : List (String × String) → σ)
    (lacks : σ → Prop) [DecidablePred lacks] (missing : ε) (options : List (String × String)) : Except ε σ :=
  match options.findSome? objection? with
  | some e => .error e
  | none => if lacks (made options) then .error missing else .ok (made options)

section
variable {ε σ : Type} {objection? : String × String → Option ε} {made : List (String × String) → σ}
    {lacks : σ → Prop}
  [DecidablePred lacks] {missing : ε} {front rest : List (String × String)} {o : String × String}

/-- Taking one option after the other and then a look at what they make is judging them. -/
theorem foldlM_bind_eq_judge (step : σ → String × String → Except ε σ)
    (h : ∀ options o, step (made options) o = (objection? o).elim (.ok (made (options ++ [o]))) .error)
    {check : σ → Except ε σ} (hcheck : ∀ s, check s = if lacks s then .error missing else .ok s)
    (options : List (String × String)) :
    options.foldlM step (made []) >>= check = judge objection? made lacks missing options := by
  rw [foldlM_eq_of_concat step made h, judge]
  cases options.findSome? objection? with
  | some e => rfl
  | none => exact hcheck (made options)

theorem judge_eq_ok_iff {s : σ} :
    judge objection? made lacks missing options = .ok s ↔
      (∀ o ∈ options, objection? o = none) ∧ ¬lacks (made options) ∧ s = made options := by
  rw [judge, ← List.findSome?_eq_none_iff]
  cases options.findSome? objection? with
  | some e => simp
  | none => by_cases hlacks : lacks (made options) <;> simp [hlacks, eq_comm]

theorem exists_judge_iff :
    (∃ s, judge objection? made lacks missing options = .ok s) ↔
      (∀ o ∈ options, objection? o = none) ∧ ¬lacks (made options) := by
  simp only [judge_eq_ok_iff]
  exact ⟨fun ⟨_, hgood, hgiven, _⟩ => ⟨hgood, hgiven⟩, fun ⟨hgood, hgiven⟩ => ⟨_, hgood, hgiven, rfl⟩⟩

theorem judge_eq_missing_iff (hne : ∀ o, objection? o ≠ some missing) :
    judge objection? made lacks missing options = .error missing ↔
      (∀ o ∈ options, objection? o = none) ∧ lacks (made options) := by
  rw [judge, ← List.findSome?_eq_none_iff]
  cases hfirst : options.findSome? objection? with
  | some e =>
    obtain ⟨o, -, ho⟩ := List.exists_of_findSome?_eq_some hfirst
    have he : e ≠ missing := fun heq => hne o (heq ▸ ho)
    simp [he]
  | none => by_cases hlacks : lacks (made options) <;> simp [hlacks]

/-- The first option that is objected to decides. -/
theorem judge_of_first {e : ε} (hfront : ∀ o ∈ front, objection? o = none) (ho : objection? o = some e) :
    judge objection? made lacks missing (front ++ o :: rest) = .error e := by
  rw [judge, List.findSome?_eq_some_iff.mpr ⟨front, o, rest, rfl, ho, hfront⟩]

/-- Options that are never objected to can be left out, if what is made does not need them. -/
theorem judge_filter {p : String × String → Bool} (h : ∀ o, p o = false → objection? o = none)
    (hmade : made (options.filter p) = made options) :
    judge objection? made lacks missing (options.filter p) = judge objection? made lacks missing options := by
  rw [judge, judge, findSome?_filter h, hmade]

end

/-! ### Order -/

/-- If all objections are the same one, the order does not matter for the first. -/
theorem findSome?_of_perm {ε : Type} {objection? : String × String → Option ε} (hperm : order.Perm options)
    (hone : ∀ o ∈ options, ∀ o' ∈ options, ∀ e e', objection? o = some e → objection? o' = some e' → e = e') :
    order.findSome? objection? = options.findSome? objection? := by
  cases hfirst : options.findSome? objection? with
  | none =>
    rw [List.findSome?_eq_none_iff] at hfirst ⊢
    exact fun o ho => hfirst o (hperm.subset ho)
  | some e =>
    obtain ⟨o, ho, he⟩ := List.exists_of_findSome?_eq_some hfirst
    cases hfirst' : order.findSome? objection? with
    | none => exact absurd (List.findSome?_eq_none_iff.mp hfirst' o (hperm.symm.subset ho)) (by simp [he])
    | some e' =>
      obtain ⟨o', ho', he'⟩ := List.exists_of_findSome?_eq_some hfirst'
      rw [hone o' (hperm.subset ho') o ho e' e he' he]

/-- What is read off the last option is the same in any order, if all the options say the same. -/
theorem bind_lastUnder_of_perm {α : Type} {read : String → Option α} (hperm : order.Perm options)
    (hone : ∀ o ∈ options, ∀ o' ∈ options, o.1 ∈ keys → o'.1 ∈ keys → read o.2 = read o'.2) :
    (lastUnder keys order).bind read = (lastUnder keys options).bind read := by
  cases hlast : lastUnder keys options with
  | none =>
    have hnone : lastUnder keys order = none :=
      lastUnder_eq_none_iff.mpr fun o ho => lastUnder_eq_none_iff.mp hlast o (hperm.subset ho)
    rw [hnone]
  | some value =>
    obtain ⟨o, ho, hkey, rfl⟩ := mem_of_lastUnder hlast
    cases hlast' : lastUnder keys order with
    | none => exact absurd hkey (lastUnder_eq_none_iff.mp hlast' o (hperm.symm.subset ho))
    | some value' =>
      obtain ⟨o', ho', hkey', rfl⟩ := mem_of_lastUnder hlast'
      exact hone o' (hperm.subset ho') o ho hkey' hkey

/-- Under one key the order of distinct keys does not matter. -/
theorem lastUnder_of_perm (hkeys : (options.map Prod.fst).Nodup) (hperm : order.Perm options) (key : String) :
    lastUnder [key] order = lastUnder [key] options := by
  have hone : ∀ o ∈ options, ∀ o' ∈ options, o.1 ∈ [key] → o'.1 ∈ [key] → some o.2 = some o'.2 := by
    intro o ho o' ho' hkey hkey'
    rw [List.mem_singleton] at hkey hkey'
    rw [List.inj_on_of_nodup_map hkeys ho ho' (hkey.trans hkey'.symm)]
  simpa only [Option.bind_fun_some] using bind_lastUnder_of_perm hperm hone

/-- Any option can come last. -/
theorem exists_perm_lastUnder {o : String × String} (ho : o ∈ options) (hkey : o.1 ∈ keys) :
    ∃ order, order.Perm options ∧ lastUnder keys order = some o.2 := by
  refine ⟨options.erase o ++ [o], ?_, by rw [lastUnder_concat, if_pos hkey]⟩
  exact List.perm_append_comm.trans (List.perm_cons_erase ho).symm

end EtherSwitch
