import EtherSwitch.Proofs.Calls

/-! What a program and the device under it say to each other: calls and their answers. Over all devices, the
    conversations of a program are those that its tree allows (`converses_run`). If a refusal ends the
    program, every conversation is one without refusals or such a one cut off at a refusal
    (`Prompt.whole_or_cut`), so a protocol is known from its conversations without refusals. -/

namespace EtherSwitch

/-- A call with its answer. -/
abbrev Exchange (I : Interface) : Type := (c : I.Call) × I.Answer c

namespace Exchange
variable {I : Interface} {ε : Type} [Refusable I ε]

/-- The call was refused with the error. -/
def Refused (x : Exchange I) (e : ε) : Prop := ∃ refuse, Refusable.refusal x.1 = some refuse ∧ x.2 = refuse e

/-- The call was not refused. -/
def Passed (x : Exchange I) : Prop := ∀ e : ε, ¬x.Refused e

end Exchange

/-- The conversation went as `whole` up to a call that was refused with the error, and there it ended. -/
def CutOff {I : Interface} {ε : Type} [Refusable I ε] (whole talk : List (Exchange I)) (e : ε) : Prop :=
  ∃ before c refused answered after, talk = before ++ [⟨c, refused⟩] ∧ Exchange.Refused ⟨c, refused⟩ e ∧
    whole = before ++ ⟨c, answered⟩ :: after

namespace Program
variable {I : Interface} {α β ε σ : Type}

/-- The exchanges of a run, oldest first. -/
def exchanges (d : Device I σ) : Program I α → σ → List (Exchange I)
  | done _, _ => []
  | ask c k, s => ⟨c, (d c s).1⟩ :: exchanges d (k (d c s).1) (d c s).2

/-- A program that makes only calls in `P` has the same exchanges with two devices that answer those alike on
    related states. -/
theorem exchanges_congr_of_calls {τ : Type} {d : Device I σ} {e : Device I τ} {P : I.Call → Prop}
    {R : σ → τ → Prop}
    (h : ∀ c s t, P c → R s t → (d c s).1 = (e c t).1 ∧ R (d c s).2 (e c t).2) {p : Program I α}
    (hp : p.Calls P) {s : σ} {t : τ} (hr : R s t) : p.exchanges d s = p.exchanges e t := by
  induction p generalizing s t with
  | done a => rfl
  | ask c k ih =>
    obtain ⟨ha, hs⟩ := h c s t hp.1 hr
    rw [exchanges, exchanges, ha, ih _ (hp.2 _) hs]

theorem Calls.of_mem_exchanges {P : I.Call → Prop} {p : Program I α} (hp : p.Calls P) (d : Device I σ) (s : σ) :
    ∀ x ∈ p.exchanges d s, P x.1 := by
  induction p generalizing s with
  | done a => exact fun _ hx => nomatch hx
  | ask c k ih => exact List.forall_mem_cons.mpr ⟨hp.1, ih _ (hp.2 _) _⟩

/-- The program can have the exchanges `talk`, all of them in `P`, and then gives `b`. -/
def Converses (P : Exchange I → Prop) : Program I α → (talk : List (Exchange I)) → (b : α) → Prop
  | done a, talk, b => talk = [] ∧ b = a
  | ask _ _, [], _ => False
  | ask c k, x :: talk, b => P x ∧ ∃ a, x = ⟨c, a⟩ ∧ Converses P (k a) talk b

theorem converses_run (d : Device I σ) (p : Program I α) (s : σ) :
    p.Converses (fun _ => True) (p.exchanges d s) (run d p s).1 := by
  induction p generalizing s with
  | done a => exact ⟨rfl, rfl⟩
  | ask c k ih => exact ⟨trivial, _, rfl, ih _ _⟩

namespace Converses
variable {P : Exchange I → Prop} {talk : List (Exchange I)} {b : β}

theorem cons {c : I.Call} {k : I.Answer c → Program I β} {a : I.Answer c} (hp : P ⟨c, a⟩)
    (h : (k a).Converses P talk b) :
    (ask c k).Converses P (⟨c, a⟩ :: talk) b :=
  ⟨hp, a, rfl, h⟩

theorem uncons {c : I.Call} {k : I.Answer c → Program I β} (h : (ask c k).Converses P talk b) :
    ∃ a rest, talk = ⟨c, a⟩ :: rest ∧ P ⟨c, a⟩ ∧ (k a).Converses P rest b := by
  cases talk with
  | nil => exact h.elim
  | cons x rest =>
    obtain ⟨hp, a, rfl, hk⟩ := h
    exact ⟨a, rest, rfl, hp, hk⟩

theorem single {c : I.Call} {f : I.Answer c → β} (h : (ask c fun a => done (f a)).Converses P talk b) :
    ∃ a, talk = [⟨c, a⟩] ∧ P ⟨c, a⟩ ∧ b = f a := by
  obtain ⟨a, rest, rfl, hp, rfl, hb⟩ := h.uncons
  exact ⟨a, rfl, hp, hb⟩

theorem bind {p : Program I α} {f : α → Program I β} (h : (p >>= f).Converses P talk b) :
    ∃ first a rest, talk = first ++ rest ∧ p.Converses P first a ∧ (f a).Converses P rest b := by
  induction p generalizing talk with
  | done a => exact ⟨[], a, talk, rfl, ⟨rfl, rfl⟩, h⟩
  | ask c k ih =>
    obtain ⟨a, later, rfl, hpass, hk⟩ := uncons (k := fun a => k a >>= f) h
    obtain ⟨first, b', rest, rfl, hfirst, hrest⟩ := ih a hk
    exact ⟨⟨c, a⟩ :: first, b', rest, rfl, hfirst.cons hpass, hrest⟩

end Converses

/-- If every call can be answered in `P`, every program has a conversation in `P`. -/
theorem exists_converses {P : Exchange I → Prop} (hP : ∀ c, ∃ a, P ⟨c, a⟩) (p : Program I α) :
    ∃ talk b, p.Converses P talk b := by
  induction p with
  | done a => exact ⟨[], a, rfl, rfl⟩
  | ask c k ih =>
    obtain ⟨a, ha⟩ := hP c
    obtain ⟨talk, b, h⟩ := ih a
    exact ⟨_, b, h.cons ha⟩

/-- If no call must be refused, a program that ends at the first refusal has conversations without
    refusals and those cut off at one, with an ending that `E` allows for it. -/
theorem Prompt.whole_or_cut [Refusable I ε] {E : ε → α → Prop} (hI : ∀ c : I.Call, ∃ a, Exchange.Passed ⟨c, a⟩)
    {p : Program I α} (hp : p.Prompt E) {talk : List (Exchange I)} {b : α}
    (h : p.Converses (fun _ => True) talk b) :
    p.Converses Exchange.Passed talk b ∨
      ∃ e whole b', p.Converses Exchange.Passed whole b' ∧ CutOff whole talk e ∧ E e b := by
  induction p generalizing talk with
  | done a => exact Or.inl h
  | ask c k ih =>
    obtain ⟨a, rest, rfl, -, hk⟩ := h.uncons
    by_cases hpass : Exchange.Passed ⟨c, a⟩
    · rcases ih a (hp.2 a) hk with hwhole |
        ⟨e, _, b', hwhole, ⟨before, c', refused, answered, after, rfl, hr, rfl⟩, he⟩
      · exact Or.inl (hwhole.cons hpass)
      · exact Or.inr ⟨e, _, b', hwhole.cons hpass,
          ⟨⟨c, a⟩ :: before, c', refused, answered, after, rfl, hr, rfl⟩, he⟩
    · -- The refusal ends the program; with another answer it would have gone on.
      obtain ⟨e, refuse, hc, rfl⟩ : ∃ e, ∃ refuse : ε →
        I.Answer c, Refusable.refusal c = some refuse ∧ a = refuse e :=
        Classical.not_forall_not.mp hpass
      obtain ⟨b', hdone, he⟩ := hp.1 refuse hc e
      rw [hdone] at hk
      obtain ⟨rfl, rfl⟩ := hk
      obtain ⟨answered, hpass'⟩ := hI c
      obtain ⟨after, b', hwhole⟩ := exists_converses hI (k answered)
      exact Or.inr ⟨e, _, b', hwhole.cons hpass',
        ⟨[], c, refuse e, answered, after, rfl, ⟨refuse, hc, rfl⟩, rfl⟩, he⟩

end Program

/-! ### Polling -/

/-- How a wait went: the answers that did not end it, and the one that did, if any. -/
structure Wait (β : Type) where
  early : List β
  last : Option β

namespace Wait
variable {I : Interface} {β : Type} {done : β → Prop} {limit : Nat}

/-- The wait ended with its first answer that is `done`, or after `limit` answers that are not. -/
def Ended (done : β → Prop) (limit : Nat) (w : Wait β) : Prop :=
  (∀ b ∈ w.early, ¬done b) ∧
    match w.last with
    | some b => done b ∧ w.early.length < limit
    | none => w.early.length = limit

/-- The exchanges of a wait: a poll for every answer and a pause after each one that did not end it. -/
def exchanges (poll : β → Exchange I) (pause : Exchange I) (w : Wait β) : List (Exchange I) :=
  (w.early.flatMap fun b => [poll b, pause]) ++ (w.last.map poll).toList

theorem ended_zero : (⟨[], none⟩ : Wait β).Ended done 0 := ⟨nofun, rfl⟩

theorem ended_now {b : β} (h : done b) : (⟨[], some b⟩ : Wait β).Ended done (limit + 1) :=
  ⟨nofun, h, Nat.succ_pos _⟩

theorem Ended.later {w : Wait β} {b : β} (h : w.Ended done limit) (hb : ¬done b) :
    (⟨b :: w.early, w.last⟩ : Wait β).Ended done (limit + 1) := by
  refine ⟨List.forall_mem_cons.mpr ⟨hb, h.1⟩, ?_⟩
  obtain ⟨early, _ | last⟩ := w
  · exact congrArg (· + 1) h.2
  · exact ⟨h.2.1, Nat.succ_lt_succ h.2.2⟩

end Wait

end EtherSwitch
