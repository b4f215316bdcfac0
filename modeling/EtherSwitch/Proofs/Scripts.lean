import EtherSwitch.Proofs.Calls
import EtherSwitch.Register.Access

/-! The accesses that a script uses, and its runs on a device part by part. A script built from reads and
    writes ends with the error of the first access that fails (`Script.Uses`). A script that only writes
    is the list of its writes (`Script.emit`), so that what it does is a matter of lists. -/

namespace EtherSwitch

/-- The register that a call is about. -/
def Registers.Call.address : Registers.Call → Address
  | .read a => a
  | .write a _ => a

theorem List.prefix_append_cases {α : Type} {xs ys zs : List α} (h : xs <+: ys ++ zs) :
    xs <+: ys ∨ ∃ rest, xs = ys ++ rest ∧ rest <+: zs := by
  rcases List.prefix_or_prefix_of_prefix h (List.prefix_append ys zs) with hfirst | ⟨rest, rfl⟩
  · exact Or.inl hfirst
  · exact Or.inr ⟨rest, rfl, (List.prefix_append_right_inj ys).mp h⟩

namespace Script
variable {α β σ τ : Type}

/-- Every access of the script satisfies `P`, and the first one that fails ends it with its error. -/
abbrev Uses (P : Registers.Call → Prop) (p : Script α) : Prop := Program.Uses id P p

section
variable {P : Registers.Call → Prop}

theorem uses_read {a : Address} (h : P (.read a)) : Uses P (read a) := by
  refine ⟨Program.calls_call h, Program.prompt_call fun refuse hr e => ?_⟩
  obtain rfl := Option.some.inj hr
  rfl

theorem uses_write {a : Address} {value : BitVec 64} (h : P (.write a value)) : Uses P (write a value) := by
  refine ⟨Program.calls_call h, Program.prompt_call fun refuse hr e => ?_⟩
  obtain rfl := Option.some.inj hr
  rfl

section
variable {l : Location}

theorem uses_read8 (h : P (.read ⟨l, .bits8⟩)) : Uses P (read8 l) := (uses_read h).bind fun _ => .done _

theorem uses_read16 (h : P (.read ⟨l, .bits16⟩)) : Uses P (read16 l) := (uses_read h).bind fun _ => .done _

end

end

/-! ### Running scripts -/

theorem runOn_bind_ok {d : Device Registers σ} {p : Script α} {f : α → Script β} {s t : σ} {a : α}
    (h : runOn d p s = (.ok a, t)) : runOn d (p >>= f) s = runOn d (f a) t := by
  rw [runOn_bind, h]

theorem runOn_bind_error {d : Device Registers σ} {p : Script α} {f : α → Script β} {s t : σ} {err : Error}
    (h : runOn d p s = (.error err, t)) : runOn d (p >>= f) s = (.error err, t) := by
  rw [runOn_bind, h]

theorem ok_of_runOn_bind {d : Device Registers σ} {p : Script α} {f : α → Script β} {s t : σ} {b : β}
    (h : runOn d (p >>= f) s = (.ok b, t)) : ∃ a u, runOn d p s = (.ok a, u) ∧ runOn d (f a) u = (.ok b, t) :=
  Program.ok_of_run_bind h

/-- A walk along a list that answers one by one as `g` does, whatever state of `K` it is in,
    answers as the walk with `g`. -/
theorem runOn_mapM {d : Device Registers σ} {K : σ → Prop} {f : α → Script β} {g : α → Except Error β}
    {xs : List α} (h : ∀ x ∈ xs, ∀ s, K s → ∃ t, K t ∧ runOn d (f x) s = (g x, t)) {s : σ} (hs : K s) :
    ∃ t, K t ∧ runOn d (xs.mapM f) s = (xs.mapM g, t) := by
  induction xs generalizing s with
  | nil => exact ⟨s, hs, rfl⟩
  | cons x xs ih =>
    obtain ⟨hx, hxs⟩ := List.forall_mem_cons.mp h
    obtain ⟨t, ht, hfirst⟩ := hx s hs
    rw [List.mapM_cons, List.mapM_cons]
    cases hgives : g x with
    | error err =>
      rw [hgives] at hfirst
      exact ⟨t, ht, runOn_bind_error hfirst⟩
    | ok y =>
      rw [hgives] at hfirst
      obtain ⟨u, hu, hrest⟩ := ih hxs ht
      refine ⟨u, hu, ?_⟩
      rw [runOn_bind_ok hfirst]
      cases hmapped : xs.mapM g with
      | error err =>
        rw [hmapped] at hrest
        exact runOn_bind_error hrest
      | ok ys =>
        rw [hmapped] at hrest
        exact runOn_bind_ok hrest

/-- A run that gets past its first part passes what the parts pass. -/
theorem passes_bind {d : Device Registers σ} {p : Script α} {f : α → Script β} {s t u : σ} {a : α}
    (h : runOn d p s = (.ok a, u)) :
    (p >>= f).run.Passes d s t ↔ p.run.Passes d s t ∨ (f a).run.Passes d u t := by
  have hbind : (p >>= f).run.Passes d s t ↔
      p.run.Passes d s t ∨ (ExceptT.bindCont f (runOn d p s).1).Passes d (runOn d p s).2 t :=
    Program.passes_bind
  rw [hbind, h]
  rfl

/-- A script cannot tell two devices apart that answer the accesses it uses alike. -/
theorem runOn_congr {d : Device Registers σ} {e : Device Registers τ} {R : σ → τ → Prop}
    {P : Registers.Call → Prop}
    (h : ∀ c s t, P c → R s t → (d c s).1 = (e c t).1 ∧ R (d c s).2 (e c t).2) {p : Script α} (hp : Uses P p)
    {s : σ} {t : τ} (hr : R s t) : (runOn d p s).1 = (runOn e p t).1 ∧ R (runOn d p s).2 (runOn e p t).2 :=
  Program.run_congr_of_calls h hp.calls hr

/-! ### Lists of writes -/

/-- A write to make. -/
structure Put where
  address : Address
  value : BitVec 64

namespace Put

def bits8 (l : Location) (value : BitVec 8) : Put := ⟨⟨l, .bits8⟩, value.setWidth 64⟩

def bits16 (l : Location) (value : BitVec 16) : Put := ⟨⟨l, .bits16⟩, value.setWidth 64⟩

def bits32 (l : Location) (value : BitVec 32) : Put := ⟨⟨l, .bits32⟩, value.setWidth 64⟩

end Put

/-- Makes the listed writes in order. -/
def emit (puts : List Put) : Script Unit := puts.forM fun p => write p.address p.value

section
variable {puts more : List Put} {l : Location}

theorem emit_cons (p : Put) (puts : List Put) : emit (p :: puts) = (do write p.address p.value; emit puts) :=
  List.forM_cons

theorem emit_append (puts more : List Put) : emit (puts ++ more) = (do emit puts; emit more) :=
  List.forM_append

theorem write8_eq (l : Location) (value : BitVec 8) : write8 l value = emit [.bits8 l value] :=
  (bind_pure_unit).symm

theorem write16_eq (l : Location) (value : BitVec 16) : write16 l value = emit [.bits16 l value] :=
  (bind_pure_unit).symm

theorem write32_eq (l : Location) (value : BitVec 32) : write32 l value = emit [.bits32 l value] :=
  (bind_pure_unit).symm

theorem forM_eq_emit {xs : List α} {f : α → Script PUnit} {g : α → List Put} (h : ∀ x ∈ xs, f x = emit (g x)) :
    xs.forM f = emit (xs.flatMap g) := by
  induction xs with
  | nil => rfl
  | cons x xs ih =>
    rw [List.forM_eq_forM, List.forM_cons, h x List.mem_cons_self, List.flatMap_cons, emit_append,
      ← ih fun y hy => h y (List.mem_cons_of_mem x hy)]
    rfl

theorem uses_emit {P : Registers.Call → Prop} (h : ∀ p ∈ puts, P (.write p.address p.value)) :
    Uses P (emit puts) :=
  .forM fun p hp => uses_write (h p hp)

end

end Script

end EtherSwitch
