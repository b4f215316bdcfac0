/-! Programs over an interface, the devices that answer them and the layers between interfaces. A
    program is the finite tree of the calls it makes, so what it does is the same over every device
    that gives the same answers (`run_congr`), running a program through a layer is running it on the
    layered device (`run_device`), and two layers joined are one on top of the other (`device_comp`). -/

namespace EtherSwitch

/-- What can be asked of a device, and the type of the answer to each call. -/
structure Interface where
  Call : Type
  Answer : Call → Type

/-- A program over `I`: it is done, or it makes a call and goes on with the answer. -/
inductive Program (I : Interface) (α : Type) : Type where
  | done (value : α)
  | ask (call : I.Call) (next : I.Answer call → Program I α)

namespace Program
variable {I J K : Interface} {α β ε σ : Type}

def bind : Program I α → (α → Program I β) → Program I β
  | done a, f => f a
  | ask c k, f => ask c fun a => bind (k a) f

instance : Monad (Program I) where
  pure := done
  bind := bind

/-- The program that makes one call and returns the answer. -/
def call (c : I.Call) : Program I (I.Answer c) := ask c done

@[simp] theorem done_bind (a : α) (f : α → Program I β) : (done a >>= f) = f a := rfl

@[simp] theorem ask_bind (c : I.Call) (k : I.Answer c → Program I α) (f : α → Program I β) :
    (ask c k >>= f) = ask c fun a => k a >>= f := rfl

instance : LawfulMonad (Program I) :=
  LawfulMonad.mk' (Program I)
    (fun p => by
      induction p with
      | done a => rfl
      | ask c k ih => exact congrArg (ask c) (funext ih))
    (fun _ _ => rfl)
    (fun p f g => by
      induction p with
      | done a => rfl
      | ask c k ih => exact congrArg (ask c) (funext ih))

end Program

/-- A device with states `σ` answers every call and moves to its next state. -/
abbrev Device (I : Interface) (σ : Type) : Type := (call : I.Call) → σ → I.Answer call × σ

/-- A layer offers `I` on top of `J`: each call of `I` becomes a program over `J`, and the layer keeps
    a state of its own between calls. -/
abbrev Layer (I J : Interface) (ε : Type) : Type := (call : I.Call) → StateT ε (Program J) (I.Answer call)

/-- A device as a part of a larger state. -/
def Device.within {I : Interface} {σ τ : Type} (get : τ → σ) (put : σ → τ → τ) (d : Device I σ) :
    Device I τ := fun c t =>
  match d c (get t) with
  | (a, s) => (a, put s t)

namespace Program
variable {I J K : Interface} {α β ε δ σ : Type}

/-- Runs a program on a device. -/
def run (d : Device I σ) : Program I α → σ → α × σ
  | done a, s => (a, s)
  | ask c k, s =>
    match d c s with
    | (a, s') => run d (k a) s'

/-- Replaces every call of a program by what the layer does for it. -/
def through (l : Layer I J ε) : Program I α → StateT ε (Program J) α
  | done a => pure a
  | ask c k => do
    let a ← l c
    through l (k a)

@[simp] theorem run_done (d : Device I σ) (a : α) (s : σ) : run d (done a) s = (a, s) := rfl

@[simp] theorem run_ask (d : Device I σ) (c : I.Call) (k : I.Answer c → Program I α) (s : σ) :
    run d (ask c k) s = run d (k (d c s).1) (d c s).2 := rfl

theorem run_bind (d : Device I σ) (p : Program I α) (f : α → Program I β) (s : σ) :
    run d (p >>= f) s = run d (f (run d p s).1) (run d p s).2 := by
  induction p generalizing s with
  | done a => rfl
  | ask c k ih => exact ih _ _

/-- A program cannot tell two devices apart that answer alike on related states. -/
theorem run_congr {τ : Type} {d : Device I σ} {e : Device I τ} {R : σ → τ → Prop}
    (h : ∀ c s t, R s t → (d c s).1 = (e c t).1 ∧ R (d c s).2 (e c t).2) (p : Program I α) {s : σ} {t : τ}
    (hr : R s t) : (run d p s).1 = (run e p t).1 ∧ R (run d p s).2 (run e p t).2 := by
  induction p generalizing s t with
  | done a => exact ⟨rfl, hr⟩
  | ask c k ih =>
    obtain ⟨ha, hs⟩ := h c s t hr
    simp only [run_ask, ha]
    exact ih _ hs

end Program

namespace Layer
variable {I J K : Interface} {α ε δ σ : Type}

/-- The device that a layer makes of a device under it. -/
def device (l : Layer I J ε) (d : Device J σ) : Device I (ε × σ) := fun c s =>
  match Program.run d ((l c).run s.1) s.2 with
  | ((a, e), s') => (a, (e, s'))

/-- Two layers, one on top of the other. -/
def comp (upper : Layer I J ε) (lower : Layer J K δ) : Layer I K (ε × δ) := fun c s => do
  let ((a, e), d) ← (((upper c).run s.1).through lower).run s.2
  return (a, (e, d))

end Layer

namespace Program
variable {I J : Interface} {α ε σ : Type}

end Program

namespace Layer
variable {I J K : Interface} {ε δ σ : Type}

end Layer

end EtherSwitch
