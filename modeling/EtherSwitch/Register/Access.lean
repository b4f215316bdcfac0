import EtherSwitch.Error
import EtherSwitch.Device.Faulty

/-! The register interface of a switch, and scripts, the register programs that stop at the first
    access that fails (`runOn_bind`). Values are right-aligned; the narrow accesses keep the low bits. -/

namespace EtherSwitch

/-- An access to one register. -/
inductive Registers.Call where
  | read (address : Address)
  /-- Bits of the value above the register's width are ignored. -/
  | write (address : Address) (value : BitVec 64)
  deriving DecidableEq, Repr

abbrev Registers.Answer : Registers.Call → Type
  | .read _ => Except Error (BitVec 64)
  | .write _ _ => Except Error Unit

/-- Access to paged registers. -/
abbrev Registers : Interface := ⟨Registers.Call, Registers.Answer⟩

instance : Refusable Registers Error where
  refusal
    | .read _ => some fun e => .error e
    | .write _ _ => some fun e => .error e

/-- A register program that may fail. -/
abbrev Script : Type → Type := ExceptT Error (Program Registers)

namespace Script

def read (a : Address) : Script (BitVec 64) := ExceptT.mk (Program.call (I := Registers) (.read a))

def write (a : Address) (value : BitVec 64) : Script Unit :=
  ExceptT.mk (Program.call (I := Registers) (.write a value))

def read8 (l : Location) : Script (BitVec 8) := do
  let value ← read ⟨l, .bits8⟩
  return value.setWidth 8

def read16 (l : Location) : Script (BitVec 16) := do
  let value ← read ⟨l, .bits16⟩
  return value.setWidth 16

def read32 (l : Location) : Script (BitVec 32) := do
  let value ← read ⟨l, .bits32⟩
  return value.setWidth 32

def write8 (l : Location) (value : BitVec 8) : Script Unit := write ⟨l, .bits8⟩ (value.setWidth 64)

def write16 (l : Location) (value : BitVec 16) : Script Unit := write ⟨l, .bits16⟩ (value.setWidth 64)

def write32 (l : Location) (value : BitVec 32) : Script Unit := write ⟨l, .bits32⟩ (value.setWidth 64)

variable {α β σ : Type}

/-- Runs a script on a device. -/
def runOn (d : Device Registers σ) (p : Script α) (s : σ) : Except Error α × σ := Program.run d p.run s

@[simp] theorem runOn_pure (d : Device Registers σ) (a : α) (s : σ) : runOn d (pure a) s = (.ok a, s) := rfl

@[simp] theorem runOn_throw (d : Device Registers σ) (e : Error) (s : σ) :
    runOn d (throw e : Script α) s = (.error e, s) := rfl

@[simp] theorem runOn_read (d : Device Registers σ) (a : Address) (s : σ) :
    runOn d (read a) s = d (.read a) s := rfl

@[simp] theorem runOn_write (d : Device Registers σ) (a : Address) (value : BitVec 64) (s : σ) :
    runOn d (write a value) s = d (.write a value) s := rfl

theorem runOn_bind (d : Device Registers σ) (p : Script α) (f : α → Script β) (s : σ) :
    runOn d (p >>= f) s =
      match runOn d p s with
      | (.ok a, s') => runOn d (f a) s'
      | (.error e, s') => (.error e, s') := by
  have h : runOn d (p >>= f) s = Program.run d (ExceptT.bindCont f (runOn d p s).1) (runOn d p s).2 :=
    Program.run_bind d p.run _ s
  rw [h]
  rcases runOn d p s with ⟨_ | a, s'⟩ <;> rfl

end Script

end EtherSwitch
