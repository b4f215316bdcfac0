import EtherSwitch.Error
import EtherSwitch.Protocol.PseudoPhy
import EtherSwitch.Protocol.SpiFrames
import EtherSwitch.Simulation.Store
import EtherSwitch.Word

/-! The two bus interfaces of the simulated chip. Each has a page of its own and hands whole register
    accesses to the store. -/

namespace EtherSwitch

/-- A data register of the pseudo PHY. -/
structure MdioPort.Chunk where
  word : BitVec 16
  /-- Whether the chunk was loaded since the last operation. -/
  loaded : Bool
  deriving DecidableEq, Repr

/-- The MDIO side: a pseudo PHY. -/
structure MdioPort where
  page : UInt8 := 0
  /-- What the address register reads back, without the bits of an operation under way. -/
  echo : BitVec 16 := 0
  /-- The bits of an operation that never completes. -/
  busy : BitVec 16 := 0
  chunks : Vector MdioPort.Chunk 4 := .replicate 4 ⟨0, false⟩
  polls : Nat := 0
  deriving DecidableEq, Repr

namespace MdioPort

/-- The chunk behind a data register. -/
def chunkIndex? (register : UInt8) : Option (Fin 4) :=
  if h : PseudoPhy.dataRegister 0 ≤ register ∧ register.toNat - (PseudoPhy.dataRegister 0).toNat < 4 then
    some ⟨register.toNat - (PseudoPhy.dataRegister 0).toNat, h.2⟩
  else none

/-- The value of the loaded chunks; the others count as zero. -/
def loadedValue (p : MdioPort) : BitVec 64 :=
  Word.ofLimbs (p.chunks.toList.map fun c => if c.loaded then c.word else 0)

/-- The data registers showing a value that was read. -/
def shown (value : BitVec 64) : Vector Chunk 4 :=
  Vector.ofFn fun i => ⟨value.extractLsb' (16 * i.val) 16, false⟩

/-- The data registers after an operation: the words stay, none counts as loaded. -/
def settle (chunks : Vector Chunk 4) : Vector Chunk 4 := chunks.map fun c => { c with loaded := false }

/-- Reads a register of the pseudo PHY. -/
def read (register : UInt8) (p : MdioPort) : BitVec 16 × MdioPort :=
  if register = PseudoPhy.pageRegister then (p.page.toBitVec ++ (1 : BitVec 8), p)
  else if register = PseudoPhy.addressRegister then (p.echo ||| p.busy, { p with polls := p.polls + 1 })
  else
    match chunkIndex? register with
    | some i => (p.chunks[i].word, p)
    | none => (0, p)

/-- Runs an operation on the store. An unknown one fails, with nothing done. -/
def operate (stall : Bool) (location : Location) (code : BitVec 16) (p : MdioPort) (s : Store) :
    Except IoError Unit × MdioPort × Store :=
  let busy : BitVec 16 := if stall then code else 0
  if code = PseudoPhy.Operation.read.code.setWidth 16 then
    match s.read location with
    | (value, s') => (.ok (), { p with chunks := shown value, busy }, s')
  else if code = PseudoPhy.Operation.write.code.setWidth 16 then
    (.ok (), { p with chunks := settle p.chunks, busy }, s.write location p.loadedValue)
  else (.error (.unknownOperation code.toNat), p, s)

/-- Writes a register of the pseudo PHY. -/
def write (stall : Bool) (register : UInt8) (word : BitVec 16) (p : MdioPort) (s : Store) :
    Except IoError Unit × MdioPort × Store :=
  let high := UInt8.ofBitVec (word.extractLsb' 8 8)
  if register = PseudoPhy.pageRegister then (.ok (), { p with page := high }, s)
  else if register = PseudoPhy.addressRegister then
    operate stall ⟨p.page, high⟩ (word &&& PseudoPhy.operationMask) { p with echo := word &&& 0xff00 } s
  else
    match chunkIndex? register with
    | some i => (.ok (), { p with chunks := p.chunks.set i ⟨word, true⟩ }, s)
    | none => (.ok (), p, s)

end MdioPort

/-- The SPI side. -/
structure SpiPort where
  page : UInt8 := 0
  /-- The value read last. -/
  data : BitVec 64 := 0
  /-- Whether the status acknowledges a read. -/
  ready : Bool := false
  polls : Nat := 0
  deriving DecidableEq, Repr

namespace SpiPort

/-- Takes a frame: a page selection or a register write of one to eight bytes. -/
def write (frame : List UInt8) (p : SpiPort) (s : Store) : Except IoError Unit × SpiPort × Store :=
  match frame with
  | command :: register :: bytes =>
    if command = SpiFrames.writeCommand then
      match decide (register = SpiFrames.pageRegister), bytes with
      | true, [page] => (.ok (), { p with page }, s)
      | _, bytes =>
        if bytes = [] ∨ 8 < bytes.length then (.error .malformedWriteFrame, p, s)
        else (.ok (), p, s.write ⟨p.page, register⟩ (Word.ofLimbs (bytes.map UInt8.toBitVec)))
    else (.error .malformedWriteFrame, p, s)
  | _ => (.error .malformedWriteFrame, p, s)

/-- The data byte behind a register. -/
def byteIndex? (register : UInt8) : Option Nat :=
  if SpiFrames.dataRegister 0 ≤ register ∧ register.toNat - (SpiFrames.dataRegister 0).toNat < 8 then
    some (register.toNat - (SpiFrames.dataRegister 0).toNat)
  else none

/-- Reads one byte of the bus interface; any register but the status and data ones starts a read. -/
def readByte (neverReady : Bool) (register : UInt8) (p : SpiPort) (s : Store) : UInt8 × SpiPort × Store :=
  if register = SpiFrames.statusRegister then
    (if p.ready then SpiFrames.acknowledged else 0, { p with polls := p.polls + 1 }, s)
  else
    match byteIndex? register with
    | some i => (UInt8.ofBitVec (p.data.extractLsb' (8 * i) 8), p, s)
    | none =>
      match s.read ⟨p.page, register⟩ with
      | (value, s') => (0, { p with data := value, ready := !neverReady }, s')

/-- Takes a read frame and answers `length` bytes, of which the first is the byte read. Nothing happens
    if none are asked for. -/
def transfer (neverReady : Bool) (frame : List UInt8) (length : Nat) (p : SpiPort) (s : Store) :
    Except IoError (List UInt8) × SpiPort × Store :=
  match frame with
  | [command, register] =>
    if command = SpiFrames.readCommand then
      match length with
      | 0 => (.ok [], p, s)
      | n + 1 =>
        match readByte neverReady register p s with
        | (byte, p', s') => (.ok (byte :: List.replicate n 0), p', s')
    else (.error .malformedReadFrame, p, s)
  | _ => (.error .malformedReadFrame, p, s)

end SpiPort

end EtherSwitch
