import EtherSwitch.Register.Access

/-! A plain bank of registers: it stores what is written, except where it is read-only, and some of its
    registers may first answer from a queue. -/

namespace EtherSwitch

structure Bank where
  values : Location → BitVec 64 := fun _ => 0
  /-- What a register answers before its value shows. -/
  queues : Location → List (BitVec 64) := fun _ => []
  readOnly : List Location := []

namespace Bank

def set (b : Bank) (l : Location) (value : BitVec 64) : Bank :=
  { b with values := fun l' => if l' = l then value else b.values l' }

def setQueue (b : Bank) (l : Location) (queue : List (BitVec 64)) : Bank :=
  { b with queues := fun l' => if l' = l then queue else b.queues l' }

/-- Access to the registers of a bank. -/
def device : Device Registers Bank := fun
  | .read a, b =>
    match b.queues a.location with
    | [] => (.ok (a.width.truncate (b.values a.location)), b)
    | value :: queue => (.ok (a.width.truncate value), b.setQueue a.location queue)
  | .write a value, b =>
    if a.location ∈ b.readOnly then (.ok (), b) else (.ok (), b.set a.location (a.width.truncate value))

end Bank

end EtherSwitch
