import EtherSwitch.Switch

/-! The operations of a switch with a guard at every step that has a range. A guarded computation stops short
    at the first step that leaves it: an index behind the end of a table, a shift by the operand's width or
    more, a sum above the largest VLAN id, a difference below zero, a number that its byte or word does not
    hold, a cast that drops bits. Every guarded operation follows the one it is named after step by step, and
    what has no such step is run as it is (`Guarded.run`). -/

namespace EtherSwitch.Guarded
variable {α : Type} {m : Type → Type}

/-- A step that may be out of range. -/
def step [Monad m] (o : Option α) : OptionT m α := OptionT.mk (pure o)

/-- A computation without such steps. -/
def run [Monad m] (p : m α) : OptionT m α := OptionT.lift p

/-! ### Steps with a range -/

/-- A table with the element at an index changed. -/
def modifyAt (xs : List α) (i : Nat) (f : α → α) : Option (List α) :=
  if i < xs.length then some (xs.modify i f) else none

def shiftLeft {w : Nat} (x : BitVec w) (n : Nat) : Option (BitVec w) := if n < w then some (x <<< n) else none

def shiftRight {w : Nat} (x : BitVec w) (n : Nat) : Option (BitVec w) := if n < w then some (x >>> n) else none

/-- A cast to `v` bits. -/
def narrow {w : Nat} (v : Nat) (x : BitVec w) : Option (BitVec v) :=
  if (x.setWidth v).toNat = x.toNat then some (x.setWidth v) else none

def byte (n : Nat) : Option UInt8 := if n < 256 then some (UInt8.ofNat n) else none

def word (n : Nat) : Option UInt16 := if n < 65536 then some (UInt16.ofNat n) else none

def minus (n k : Nat) : Option Nat := if k ≤ n then some (n - k) else none

/-- The sum of a port's own VLAN and the base, which has to be a VLAN id. -/
def addVid (pvid base : UInt16) : Option UInt16 :=
  if pvid.toNat + base.toNat ≤ Config.vidLimit.toNat then some (pvid + base) else none

/-! ### The configuration -/

def untagMask (c : Config) : Option PortMask :=
  c.ports.zipIdx.foldlM (fun mask (p, i) =>
    if !p.tagged then return mask ||| (← shiftLeft 1#16 i) else return mask) 0

def setVlanBase (c : Config) (base : UInt16) : OptionT (Except Error) Config := do
  if c.chip.family = .gigabit ∧ base ≠ 0 then run (.error (.unsupported .vlanBase))
  else if Config.vidLimit < base then run (.error (.invalidVlanId base Config.vidLimit))
  else
    let low ← step (do word (← minus c.chip.numVlans.toNat 1))
    return { c with vlanBase := base &&& ~~~low }

def portPvid (c : Config) (port : UInt8) : OptionT (Except Error) UInt16 := do
  run (c.checkPort port)
  let p ← step c.ports[port.toNat]?
  return p.pvid

def setPortPvid (c : Config) (port : UInt8) (vid : UInt16) : OptionT (Except Error) Config := do
  run (c.checkPort port)
  if c.chip.maxVid < vid then run (.error (.invalidVlanId vid c.chip.maxVid))
  else
    let ports ← step (modifyAt c.ports port.toNat fun p => { p with pvid := vid })
    return { c with ports }

/-- The member that the port at a place is of an entry, if it is one. -/
def member? (entry : VlanEntry) (place : PortConfig × Nat) : Option (Option VlanPort) := do
  let port ← byte place.2
  let bit ← shiftLeft 1#16 port.toNat
  return if entry.members &&& bit ≠ 0 then some ⟨port, place.1.tagged⟩ else none

def members (c : Config) (entry : VlanEntry) : Option (List VlanPort) :=
  if entry.valid then do
    let found ← c.ports.zipIdx.mapM (member? entry)
    return found.filterMap id
  else some []

def vlanPorts (c : Config) (index : UInt16) : OptionT (Except Error) (List VlanPort) := do
  run (Config.checkVlanIndex c.chip index)
  let entry ← step c.vlans[index.toNat]?
  step (members c entry)

/-- One port more joins entry `index`: its bit is added to the set and its configuration is changed. -/
def join (index : UInt16) (state : PortMask × List PortConfig) (m : VlanPort) :
    Option (PortMask × List PortConfig) := do
  let bit ← shiftLeft 1#16 m.port.toNat
  let ports ← modifyAt state.2 m.port.toNat (.join index m.tagged)
  return (state.1 ||| bit, ports)

def setVlanPorts (c : Config) (index : UInt16) (members : List VlanPort) : OptionT (Except Error) Config := do
  run (Config.checkVlanIndex c.chip index)
  if index = 0 ∧ c.chip.family = .gigabit then run (.error (.reservedVlan index))
  else
    run (members.forM fun m => c.checkPort m.port)
    let (mask, ports) ← step (members.foldlM (join index) (0, c.ports))
    let vlans ← step (modifyAt c.vlans index.toNat fun _ => ⟨mask, mask != 0⟩)
    return { c with ports, vlans }

/-! ### The default tags -/

def defaultTag (port : UInt8) : Option Location := do
  let offset ← byte (0x10 + 2 * port.toNat)
  return ⟨Layout.vlanPage, offset⟩

def clearDefaultTags (chip : Chip) : OptionT Script PUnit :=
  (portsBelow chip.numPorts).forM fun port => do
    let tag ← step (defaultTag port)
    run (Script.write16 tag 0)

def setDefaultTags (ports : List PortConfig) (tag : PortConfig → Option UInt16) : OptionT Script PUnit :=
  ports.zipIdx.forM fun (p, i) => do
    let port ← step (byte i)
    if p.tagged then pure ()
    else
      let register ← step (defaultTag port)
      let value ← step (tag p)
      run (Script.write16 register value.toBitVec)

/-! ### Status summaries -/

def statusBit (summary : BitVec 16) (port : UInt8) : Option Bool := do
  let bit ← shiftRight summary port.toNat
  return bit &&& 1 != 0

def speedFieldFast (summary : BitVec 16) (port : UInt8) : Option (BitVec 8) := do
  let field ← shiftRight summary port.toNat
  narrow 8 (field &&& 1)

def speedFieldGigabit (summary : BitVec 32) (port : UInt8) : Option (BitVec 8) := do
  let field ← shiftRight summary (2 * port.toNat)
  narrow 8 (field &&& 3)

def decode (port : UInt8) (link : BitVec 16) (speed : BitVec 8) (duplex : BitVec 16) :
    OptionT (Except Error) PortLink := do
  let up ← step (statusBit link port)
  if up then
    match PortLink.speedOfField? speed with
    | some s =>
      let full ← step (statusBit duplex port)
      return ⟨port, true, s, if full then .full else .half⟩
    | none => run (.error (.invalidSpeed port speed))
  else return .down port

/-- A guarded look at what was read, as a part of a script. -/
def toScript (x : OptionT (Except Error) α) : OptionT Script α := OptionT.mk (ExceptT.mk (pure x.run))

/-! ### The fast Ethernet family -/

namespace FastEthernet

def writeEntry (chip : Chip) (index : UInt16) (members untagged : PortMask) (vidHigh : BitVec 8) :
    OptionT Script Unit := do
  toScript (run (Config.checkVlanIndex chip index))
  run (Script.write32 Layout.tableEntry (EtherSwitch.FastEthernet.entryWord members untagged vidHigh))
  let place ← step (byte index.toNat)
  run (Script.write16 Layout.tableAccess (Layout.writeCommand place))

def vidHigh (base : UInt16) : Option (BitVec 8) := do
  let high ← shiftRight base.toBitVec 4
  narrow 8 high

def applyVlans (chip : Chip) (c : Config) : OptionT Script PUnit := do
  let untagged ← step (untagMask c)
  setDefaultTags c.ports fun p => addVid p.pvid c.vlanBase
  let high ← step (vidHigh c.vlanBase)
  c.vlans.zipIdx.forM fun (entry, i) => do
    let index ← step (word i)
    writeEntry chip index entry.members (untagged &&& entry.members) high

def applyFlat (chip : Chip) : OptionT Script PUnit := do
  (List.range chip.numVlans.toNat).forM fun i => do
    let index ← step (word i)
    writeEntry chip index 0 0 0
  writeEntry chip EtherSwitch.FastEthernet.flatVlan FastEntry.ports FastEntry.ports 0
  let cpu ← step (do byte (← minus chip.numPorts.toNat 1))
  run (clearPortControl (portsBelow cpu))
  clearDefaultTags chip

def apply (chip : Chip) (c : Config) : OptionT Script PUnit := do
  run (setManaged c.vlanEnabled true)
  if c.vlanEnabled then applyVlans chip c else applyFlat chip

def portLink (chip : Chip) (port : UInt8) : OptionT Script PortLink := do
  toScript (run (checkLinkPort chip port))
  let link ← run (Script.read16 Layout.linkStatus)
  let speed ← run (Script.read16 Layout.speedStatus)
  let duplex ← run (Script.read16 Layout.duplexFast)
  let field ← step (speedFieldFast speed port)
  toScript (decode port link field duplex)

end FastEthernet

/-! ### The gigabit family -/

namespace Gigabit

def applyVlans (chip : Chip) (c : Config) : OptionT Script PUnit := do
  let untagged ← step (untagMask c)
  setDefaultTags c.ports fun p => some p.pvid
  (c.vlans.zipIdx.drop 1).forM fun (entry, i) => do
    let index ← step (word i)
    run (Gigabit.writeEntry chip index entry.members (untagged &&& entry.members))

def applyFlat (chip : Chip) : OptionT Script PUnit := do
  ((List.range chip.numVlans.toNat).drop 1).forM fun i => do
    let index ← step (word i)
    run (Gigabit.writeEntry chip index 0 0)
  run (clearPortControl (portsBelow (chip.lastPhyPort + 1)))
  clearDefaultTags chip

def apply (chip : Chip) (c : Config) : OptionT Script PUnit := do
  run (setManaged c.vlanEnabled true)
  if c.vlanEnabled then applyVlans chip c else applyFlat chip

def portLink (chip : Chip) (port : UInt8) : OptionT Script PortLink := do
  toScript (run (checkLinkPort chip port))
  let link ← run (Script.read16 Layout.linkStatus)
  let speed ← run (Script.read32 Layout.speedStatus)
  let duplex ← run (Script.read16 Layout.duplexGigabit)
  let field ← step (speedFieldGigabit speed port)
  toScript (decode port link field duplex)

end Gigabit

/-! ### The operations -/

def applyConfig (c : Config) : OptionT Script PUnit :=
  match c.chip.family with
  | .fastEthernet => FastEthernet.apply c.chip c
  | .gigabit => Gigabit.apply c.chip c

def portLink (c : Config) (port : UInt8) : OptionT Script PortLink :=
  match c.chip.family with
  | .fastEthernet => FastEthernet.portLink c.chip port
  | .gigabit => Gigabit.portLink c.chip port

def portLinks (c : Config) : OptionT Script (List PortLink) :=
  (portsBelow (c.chip.lastPhyPort + 1)).mapM (portLink c)

def resetScript (c : Config) : OptionT Script PUnit := do
  run (c.chip.family.reset c.chip)
  applyConfig c

def look (f : Config → OptionT (Except Error) α) : Switch.Task (Option α) := Switch.look fun c => (f c).run

def change (f : Config → OptionT (Except Error) Config) : Switch.Task (Option Unit) := do
  match (f (← get)).run with
  | .ok (some c) =>
    set c
    return some ()
  | .ok none => return none
  | .error e => throw e

def script (f : Config → OptionT Script α) : Switch.Task (Option α) := Switch.script fun c => (f c).run

/-- The operations with every guard in place; the answer is `none` where one stopped short. -/
def perform : (op : Switch.Operation) → Switch.Task (Option op.Result)
  | .setVlanBase base => change (setVlanBase · base)
  | .portPvid port => look (portPvid · port)
  | .setPortPvid port vid => change (setPortPvid · port vid)
  | .vlanPorts index => look (vlanPorts · index)
  | .setVlanPorts index members => change (setVlanPorts · index members)
  | .applyConfig => script applyConfig
  | .resetSwitch => do
    modify Config.clear
    script resetScript
  | .portLink port => script (portLink · port)
  | .portLinks => script portLinks
  | op => some <$> Switch.perform op

end EtherSwitch.Guarded
