import EtherSwitch.Device.Faulty

/-! The calls that a program can make and the states that its run passes. Two devices that answer the
    calls in question alike cannot be told apart (`run_congr_of_calls`), a property that every call keeps
    holds all along the run (`Passes.keeps`), and a program that ends at the first refusal is, on a
    failing device, either as on the device itself or stops in a state that the full run passes
    (`run_faulty_of_prompt`). -/

namespace EtherSwitch.Program
variable {I : Interface} {α β δ ε σ τ : Type}

/-- Every call that the program can make, whatever it is answered, satisfies `P`. -/
def Calls (P : I.Call → Prop) : Program I α → Prop
  | done _ => True
  | ask c k => P c ∧ ∀ a, Calls P (k a)

section
variable {P Q : I.Call → Prop}

theorem calls_call {c : I.Call} (h : P c) : (call c : Program I _).Calls P := ⟨h, fun _ => trivial⟩

theorem calls_true (p : Program I α) : p.Calls fun _ => True := by
  induction p with
  | done a => trivial
  | ask c k ih => exact ⟨trivial, ih⟩

theorem Calls.mono {p : Program I α} (hp : p.Calls P) (h : ∀ c, P c → Q c) : p.Calls Q := by
  induction p with
  | done a => trivial
  | ask c k ih => exact ⟨h c hp.1, fun a => ih a (hp.2 a)⟩

theorem Calls.bind {p : Program I α} {f : α → Program I β} (hp : p.Calls P) (hf : ∀ a, (f a).Calls P) :
    (p >>= f).Calls P := by
  induction p with
  | done a => exact hf a
  | ask c k ih => exact ⟨hp.1, fun a => ih a (hp.2 a)⟩

/-- A program that makes only calls in `P` cannot tell two devices apart that answer those alike on
    related states. -/
theorem run_congr_of_calls {d : Device I σ} {e : Device I τ} {R : σ → τ → Prop}
    (h : ∀ c s t, P c → R s t → (d c s).1 = (e c t).1 ∧ R (d c s).2 (e c t).2) {p : Program I α}
    (hp : p.Calls P)
    {s : σ} {t : τ} (hr : R s t) : (run d p s).1 = (run e p t).1 ∧ R (run d p s).2 (run e p t).2 := by
  induction p generalizing s t with
  | done a => exact ⟨rfl, hr⟩
  | ask c k ih =>
    obtain ⟨ha, hs⟩ := h c s t hp.1 hr
    rw [run_ask, run_ask, ha]
    exact ih _ (hp.2 _) hs

end

/-! ### The states of a run -/

/-- The run from `s` passes `t`; it passes its first and its last state. -/
def Passes (d : Device I σ) : Program I α → σ → σ → Prop
  | done _, s, t => t = s
  | ask c k, s, t => t = s ∨ Passes d (k (d c s).1) (d c s).2 t

section
variable {d : Device I σ} {s t : σ}

theorem passes_start (d : Device I σ) (p : Program I α) (s : σ) : p.Passes d s s := by
  cases p with
  | done a => exact rfl
  | ask c k => exact Or.inl rfl

theorem passes_end (d : Device I σ) (p : Program I α) (s : σ) : p.Passes d s (run d p s).2 := by
  induction p generalizing s with
  | done a => exact rfl
  | ask c k ih => exact Or.inr (ih _ _)

theorem passes_bind {p : Program I α} {f : α → Program I β} :
    (p >>= f).Passes d s t ↔ p.Passes d s t ∨ (f (run d p s).1).Passes d (run d p s).2 t := by
  induction p generalizing s with
  | done a =>
    refine ⟨Or.inr, fun h => ?_⟩
    rcases h with h | h
    · obtain rfl : t = s := h
      exact passes_start d _ _
    · exact h
  | ask c k ih =>
    simp only [ask_bind, Passes, run_ask, ih, or_assoc]

/-- What every call in `P` keeps holds wherever the run passes. -/
theorem Passes.keeps {P : I.Call → Prop} {K : σ → Prop} (h : ∀ c s, P c → K s → K (d c s).2) {p : Program I α}
    (hp : p.Calls P) (ht : p.Passes d s t) (hs : K s) : K t := by
  induction p generalizing s with
  | done a =>
    obtain rfl : t = s := ht
    exact hs
  | ask c k ih =>
    rcases ht with rfl | ht
    · exact hs
    · exact ih _ (hp.2 _) ht (h c s hp.1 hs)

end

/-- The run from `s` comes to make call `c` in state `t`. -/
def Makes (d : Device I σ) : Program I α → σ → I.Call → σ → Prop
  | done _, _, _, _ => False
  | ask c k, s, call, t => (call = c ∧ t = s) ∨ Makes d (k (d c s).1) (d c s).2 call t

section
variable {d : Device I σ} {s t : σ} {c : I.Call}

theorem makes_bind {p : Program I α} {f : α → Program I β} :
    (p >>= f).Makes d s c t ↔ p.Makes d s c t ∨ (f (run d p s).1).Makes d (run d p s).2 c t := by
  induction p generalizing s with
  | done a => exact (iff_of_eq (false_or _)).symm
  | ask call k ih => simp only [ask_bind, Makes, run_ask, ih, or_assoc]

/-- A call that the run makes is one that the program can make, and what all of them keep holds there. -/
theorem Makes.keeps {P : I.Call → Prop} {K : σ → Prop} (h : ∀ c s, P c → K s → K (d c s).2) {p : Program I α}
    (hp : p.Calls P) (hm : p.Makes d s c t) (hs : K s) : P c ∧ K t := by
  induction p generalizing s with
  | done a => exact hm.elim
  | ask call k ih =>
    rcases hm with ⟨rfl, rfl⟩ | hm
    · exact ⟨hp.1, hs⟩
    · exact ih _ (hp.2 _) hm (h call s hp.1 hs)

end

/-- At most one call of the program, however it goes, is outside `Q`. -/
def Once (Q : I.Call → Prop) : Program I α → Prop
  | done _ => True
  | ask c k => (Q c ∧ ∀ a, Once Q (k a)) ∨ ∀ a, (k a).Calls Q

section
variable {Q : I.Call → Prop}

theorem Calls.once {p : Program I α} (hp : p.Calls Q) : p.Once Q := by
  induction p with
  | done a => trivial
  | ask c k ih => exact Or.inl ⟨hp.1, fun a => ih a (hp.2 a)⟩

theorem Once.bind {p : Program I α} {f : α → Program I β} (hp : p.Once Q) (hf : ∀ a, (f a).Calls Q) :
    (p >>= f).Once Q := by
  induction p with
  | done a => exact (hf a).once
  | ask c k ih =>
    rcases hp with ⟨hc, hk⟩ | hk
    · exact Or.inl ⟨hc, fun a => ih a (hk a)⟩
    · exact Or.inr fun a => (hk a).bind hf

theorem Calls.bind_once {p : Program I α} {f : α → Program I β} (hp : p.Calls Q) (hf : ∀ a, (f a).Once Q) :
    (p >>= f).Once Q := by
  induction p with
  | done a => exact hf a
  | ask c k ih => exact Or.inl ⟨hp.1, fun a => ih a (hp.2 a)⟩

/-- If only one call can change the view of the state, the view is everywhere that before the run or
    that after it. -/
theorem Once.view_eq {d : Device I σ} {view : σ → τ} (h : ∀ c s, Q c → view (d c s).2 = view s)
    {p : Program I α}
    (hp : p.Once Q) {s t : σ} (ht : p.Passes d s t) : view t = view s ∨ view t = view (run d p s).2 := by
  induction p generalizing s with
  | done a =>
    obtain rfl : t = s := ht
    exact Or.inl rfl
  | ask c k ih =>
    rcases ht with rfl | ht
    · exact Or.inl rfl
    · rcases hp with ⟨hc, hk⟩ | hk
      · rw [← h c s hc]
        exact ih _ (hk _) ht
      · -- This was the one call that may change the view; what follows keeps it.
        refine Or.inr ?_
        have kept : ∀ u, (k (d c s).1).Passes d (d c s).2 u → view u = view (d c s).2 := fun u hu =>
          Passes.keeps (K := fun u => view u = view (d c s).2) (fun c' u' hc' hu' => (h c' u' hc').trans hu')
            (hk _) hu rfl
        rw [kept t ht, run_ask, kept _ (passes_end d _ _)]

end

theorem run_keeps {d : Device I σ} {P : I.Call → Prop} {K : σ → Prop} (h : ∀ c s, P c → K s → K (d c s).2)
    {p : Program I α} (hp : p.Calls P) {s : σ} (hs : K s) : K (run d p s).2 :=
  Passes.keeps h hp (passes_end d p s) hs

/-- What every call under a layer keeps, a call on top of it keeps. -/
theorem device_keeps {J : Interface} {l : Layer I J δ} {d : Device J σ} {P : J.Call → Prop} {K : σ → Prop}
    (h : ∀ c s, P c → K s → K (d c s).2) (c : I.Call) (e : δ) (hp : ((l c).run e).Calls P) {s : σ} (hs : K s) :
    K (l.device d c (e, s)).2.2 :=
  run_keeps h hp hs

/-! ### Refused calls -/

section
variable [Refusable I ε]

/-- A program that ends as soon as a call is refused, with a value that `E` allows for the refusal. -/
def Prompt (E : ε → α → Prop) : Program I α → Prop
  | done _ => True
  | ask c k =>
    (∀ refuse, Refusable.refusal c = some refuse → ∀ e, ∃ a, k (refuse e) = done a ∧ E e a) ∧
      ∀ a, Prompt E (k a)

theorem prompt_call {E : ε → β → Prop} {c : I.Call} {f : I.Answer c → β}
    (h : ∀ refuse, Refusable.refusal c = some refuse → ∀ e, E e (f (refuse e))) :
    (ask c fun a => done (f a) : Program I β).Prompt E :=
  ⟨fun refuse hr e => ⟨_, rfl, h refuse hr e⟩, fun _ => trivial⟩

theorem Prompt.mono {D E : ε → α → Prop} {p : Program I α} (hp : p.Prompt D) (h : ∀ e a, D e a → E e a) :
    p.Prompt E := by
  induction p with
  | done a => trivial
  | ask c k ih =>
    refine ⟨fun refuse hr e => ?_, fun a => ih a (hp.2 a)⟩
    obtain ⟨a, ha, hd⟩ := hp.1 refuse hr e
    exact ⟨a, ha, h e a hd⟩

/-- The first part's endings are allowed if what follows turns them at once into allowed ones. -/
theorem Prompt.bind {D : ε → α → Prop} {E : ε → β → Prop} {p : Program I α} {f : α → Program I β}
    (hp : p.Prompt D) (hend : ∀ e a, D e a → ∃ b, f a = done b ∧ E e b) (hf : ∀ a, (f a).Prompt E) :
    (p >>= f).Prompt E := by
  induction p with
  | done a => exact hf a
  | ask c k ih =>
    refine ⟨fun refuse hr e => ?_, fun a => ih a (hp.2 a)⟩
    obtain ⟨a, ha, hd⟩ := hp.1 refuse hr e
    obtain ⟨b, hb, he⟩ := hend e a hd
    refine ⟨b, ?_, he⟩
    show (k (refuse e) >>= f) = done b
    rw [ha]
    exact hb

/-- A call of `d` in state `s` is refused, with as much done of what `e` does on the view of the state as
    nothing or all of it. -/
def Cut (d : Device I σ) (e : Device I τ) (view : σ → τ) (c : I.Call) (s : σ) : Prop :=
  ∃ refuse err, Refusable.refusal c = some refuse ∧ (d c s).1 = refuse err ∧
    (view (d c s).2 = view s ∨ view (d c s).2 = (e c (view s)).2)

/-- A prompt program on a device whose calls do what another device does, or are cut, ends as on the
    other device, or with a refusal and in a state that the run on the other device passes. -/
theorem run_of_cut {d : Device I σ} {e : Device I τ} {view : σ → τ} {K : σ → Prop} {P : I.Call → Prop}
    {E : ε → α → Prop} (h : ∀ c s, P c → K s →
      ((d c s).1 = (e c (view s)).1 ∧ view (d c s).2 = (e c (view s)).2 ∧ K (d c s).2) ∨ Cut d e view c s)
    {p : Program I α} (hc : p.Calls P) (hp : p.Prompt E) {s : σ} (hk : K s) :
    ((run d p s).1 = (run e p (view s)).1 ∧ view (run d p s).2 = (run e p (view s)).2 ∧ K (run d p s).2) ∨
      ∃ err, E err (run d p s).1 ∧ p.Passes e (view s) (view (run d p s).2) := by
  induction p generalizing s with
  | done a => exact Or.inl ⟨rfl, rfl, hk⟩
  | ask c k ih =>
    rw [run_ask, run_ask]
    rcases h c s hc.1 hk with ⟨ha, hv, hk'⟩ | ⟨refuse, err, hr, ha, hv⟩
    · rw [← ha, ← hv]
      rcases ih _ (hc.2 _) (hp.2 _) hk' with hfull | ⟨err, he, hpass⟩
      · exact Or.inl hfull
      · refine Or.inr ⟨err, he, Or.inr ?_⟩
        rw [← ha, ← hv]
        exact hpass
    · -- The refusal ends the program, before or after the effect that the full run has here.
      obtain ⟨a, hdone, he⟩ := hp.1 refuse hr err
      rw [ha, hdone]
      refine Or.inr ⟨err, he, ?_⟩
      rcases hv with hv | hv
      · exact Or.inl hv
      · refine Or.inr ?_
        show Passes e _ _ (view (d c s).2)
        rw [hv]
        exact passes_start e _ _

theorem faulty_keeps {d : Device I σ} {c : I.Call} {K : σ → Prop} (h : ∀ s, K s → K (d c s).2) {s : Faulty ε σ}
    (hs : K s.device) : K (d.faulty c s).2.device := by
  unfold Device.faulty
  split
  · exact h _ hs
  · split
    · exact hs
    · exact h _ hs

theorem faulty_or_cut (d : Device I σ) (c : I.Call) (s : Faulty ε σ) :
    ((d.faulty c s).1 = (d c s.device).1 ∧ (d.faulty c s).2.device = (d c s.device).2) ∨
      Cut d.faulty d Faulty.device c s := by
  cases hr : Refusable.refusal c with
  | none => exact Or.inl (by simp [Device.faulty, hr])
  | some refuse =>
    cases hplan : s.plan s.made with
    | none =>
      rw [faulty_of_passed hr d hplan]
      exact Or.inl ⟨rfl, rfl⟩
    | some err =>
      have hcut := faulty_of_refused hr d hplan
      exact Or.inr ⟨refuse, err, hr, congrArg Prod.fst hcut, Or.inl (congrArg (fun r => r.2.device) hcut)⟩

/-- On a failing device a prompt program ends as on the device itself, or with a refusal and in a state
    that the run on the device itself passes. -/
theorem run_faulty_of_prompt (d : Device I σ) {E : ε → α → Prop} {p : Program I α} (hp : p.Prompt E)
    (s : Faulty ε σ) :
    ((run d.faulty p s).1 = (run d p s.device).1 ∧ (run d.faulty p s).2.device = (run d p s.device).2) ∨
      ∃ err, E err (run d.faulty p s).1 ∧ p.Passes d s.device (run d.faulty p s).2.device := by
  have hall : p.Calls fun _ => True := p.calls_true
  rcases run_of_cut (K := fun _ => True) (fun c s _ _ => (faulty_or_cut d c s).imp_left fun h =>
    ⟨h.1, h.2, trivial⟩)
    hall hp trivial with ⟨h1, h2, -⟩ | h
  · exact Or.inl ⟨h1, h2⟩
  · exact Or.inr h

/-- A call on top of a prompt layer that makes at most one call with an effect on the view is, on a
    failing device, as on the device itself or refused with none or all of its effect. -/
theorem device_faulty_or_cut {J : Interface} {ε' : Type} [Refusable J ε'] {l : Layer J I δ} {d : Device I σ}
    {view : σ → τ} {c : J.Call} {e : δ} {wrap : ε → ε'}
    (hprompt : ((l c).run e).Prompt fun err v => ∃ refuse, Refusable.refusal c = some refuse ∧
      v.1 = refuse (wrap err))
    (honce : ((l c).run e).Once fun c => ∀ s, view (d c s).2 = view s) (s : Faulty ε σ) :
    ((l.device d.faulty c (e, s)).1 = (l.device d c (e, s.device)).1 ∧
        (l.device d.faulty c (e, s)).2.2.device = (l.device d c (e, s.device)).2.2) ∨
      ∃ refuse err, Refusable.refusal c = some refuse ∧ (l.device d.faulty c (e, s)).1 = refuse err ∧
        (view (l.device d.faulty c (e, s)).2.2.device = view s.device ∨
          view (l.device d.faulty c (e, s)).2.2.device = view (l.device d c (e, s.device)).2.2) := by
  rcases run_faulty_of_prompt d hprompt s with ⟨ha, hd⟩ | ⟨err, ⟨refuse, hr, ha⟩, hpass⟩
  · exact Or.inl ⟨congrArg Prod.fst ha, hd⟩
  · exact Or.inr ⟨refuse, wrap err, hr, ha, honce.view_eq (fun c s hc => hc s) hpass⟩

/-! ### Programs that may fail -/

/-- A program that succeeds in two parts succeeds in each of them. -/
theorem ok_of_run_bind {d : Device I σ} {p : ExceptT δ (Program I) α} {f : α → ExceptT δ (Program I) β}
    {s t : σ} {b : β} (h : run d (p >>= f).run s = (.ok b, t)) : ∃ a u, run d p.run s = (.ok a, u) ∧
      run d (f a).run u = (.ok b, t) := by
  have hbind : run d (p >>= f).run s = run d (ExceptT.bindCont f (run d p.run s).1) (run d p.run s).2 :=
    run_bind d p.run _ s
  rw [hbind] at h
  rcases hfirst : run d p.run s with ⟨e | a, u⟩
  · rw [hfirst] at h
    cases h
  · rw [hfirst] at h
    exact ⟨a, u, rfl, h⟩

/-- A program of two parts makes a call in the first one or, if that succeeds, in the second. -/
theorem makes_of_bind {d : Device I σ} {p : ExceptT δ (Program I) α} {f : α → ExceptT δ (Program I) β} {s t : σ}
    {c : I.Call} (h : (p >>= f).run.Makes d s c t) :
    p.run.Makes d s c t ∨ ∃ a u, run d p.run s = (.ok a, u) ∧ (f a).run.Makes d u c t := by
  have hbind : p.run.Makes d s c t ∨ (ExceptT.bindCont f (run d p.run s).1).Makes d (run d p.run s).2 c t :=
    makes_bind.mp h
  refine hbind.imp_right fun hsecond => ?_
  rcases hfirst : run d p.run s with ⟨e | a, u⟩
  · rw [hfirst] at hsecond
    exact False.elim hsecond
  · rw [hfirst] at hsecond
    exact ⟨a, u, rfl, hsecond⟩

/-- Every call of the program satisfies `P`, and the first one that is refused ends it with the refusal
    as an error. -/
structure Uses (wrap : ε → δ) (P : I.Call → Prop) (p : ExceptT δ (Program I) α) : Prop where
  calls : Calls P p.run
  prompt : Prompt (fun e answer => answer = .error (wrap e)) p.run

namespace Uses
variable {wrap : ε → δ} {P Q : I.Call → Prop}

theorem mono {p : ExceptT δ (Program I) α} (hp : Uses wrap P p) (h : ∀ c, P c → Q c) : Uses wrap Q p :=
  ⟨hp.calls.mono h, hp.prompt⟩

theorem done (x : Except δ α) : Uses wrap P (ExceptT.mk (Program.done x)) := ⟨trivial, trivial⟩

theorem bind {p : ExceptT δ (Program I) α} {f : α → ExceptT δ (Program I) β} (hp : Uses wrap P p)
    (hf : ∀ a, Uses wrap P (f a)) : Uses wrap P (p >>= f) where
  calls := by
    refine Calls.bind (p := p.run) (f := ExceptT.bindCont f) hp.calls fun answer => ?_
    cases answer with
    | error e => trivial
    | ok a => exact (hf a).calls
  prompt := by
    refine Prompt.bind (p := p.run) (f := ExceptT.bindCont f) hp.prompt ?_ fun answer => ?_
    · rintro e _ rfl
      exact ⟨_, rfl, rfl⟩
    · cases answer with
      | error e => trivial
      | ok a => exact (hf a).prompt

theorem seq {p : ExceptT δ (Program I) PUnit} {q : ExceptT δ (Program I) β} (hp : Uses wrap P p)
    (hq : Uses wrap P q) :
    Uses wrap P (do p; q) :=
  hp.bind fun _ => hq

theorem ite {c : Prop} [Decidable c] {p q : ExceptT δ (Program I) α} (hp : Uses wrap P p) (hq : Uses wrap P q) :
    Uses wrap P (if c then p else q) := by
  split
  · exact hp
  · exact hq

theorem forM {xs : List α} {f : α → ExceptT δ (Program I) PUnit} (h : ∀ x ∈ xs, Uses wrap P (f x)) :
    Uses wrap P (xs.forM f) := by
  induction xs with
  | nil => exact Uses.done _
  | cons x xs ih =>
    rw [List.forM_eq_forM, List.forM_cons]
    exact (h x List.mem_cons_self).seq (ih fun y hy => h y (List.mem_cons_of_mem x hy))

theorem mapM {xs : List α} {f : α → ExceptT δ (Program I) β} (h : ∀ x ∈ xs, Uses wrap P (f x)) :
    Uses wrap P (xs.mapM f) := by
  induction xs with
  | nil =>
    rw [List.mapM_nil]
    exact Uses.done _
  | cons x xs ih =>
    rw [List.mapM_cons]
    exact (h x List.mem_cons_self).bind fun y =>
      (ih fun z hz => h z (List.mem_cons_of_mem x hz)).bind fun _ => Uses.done _

theorem bind_once {p : ExceptT δ (Program I) α} {f : α → ExceptT δ (Program I) β} (hp : Uses wrap P p)
    (hf : ∀ a, (f a).run.Once P) : (p >>= f).run.Once P := by
  refine Calls.bind_once (p := p.run) (f := ExceptT.bindCont f) hp.calls fun answer => ?_
  cases answer with
  | error e => trivial
  | ok a => exact hf a

theorem once_bind {p : ExceptT δ (Program I) α} {f : α → ExceptT δ (Program I) β} (hp : p.run.Once P)
    (hf : ∀ a, Uses wrap P (f a)) : (p >>= f).run.Once P := by
  refine Once.bind (p := p.run) (f := ExceptT.bindCont f) hp fun answer => ?_
  cases answer with
  | error e => trivial
  | ok a => exact (hf a).calls

end Uses

end

end EtherSwitch.Program
