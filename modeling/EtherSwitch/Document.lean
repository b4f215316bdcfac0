import EtherSwitch.Config
import EtherSwitch.Link

/-! The saved form of a configuration and of a link, as a document of nested records and lists. What is
    written is read back. A record may also be given as the list of its fields in order, and fields that
    a record does not know are passed over. -/

namespace EtherSwitch

inductive Document where
  | null
  | flag (value : Bool)
  | number (value : Int)
  /-- A number that is no integer; nothing that is saved has one. -/
  | fraction
  | text (value : String)
  | list (items : List Document)
  | record (fields : List (String × Document))
  deriving Inhabited

namespace Document

/-! ### Reading parts -/

/-- The values of the named fields, in order. -/
def fields? (names : List String) : Document → Option (List Document)
  | record fields => names.mapM fun name => fields.lookup name
  | list items => if items.length = names.length then some items else none
  | _ => none

def flag? : Document → Option Bool
  | flag b => some b
  | _ => none

/-- A natural number below `bound`. -/
def natBelow? (bound : Nat) : Document → Option Nat
  | number n => if 0 ≤ n ∧ n < bound then some n.toNat else none
  | _ => none

def byte? (d : Document) : Option UInt8 := (d.natBelow? UInt8.size).map UInt8.ofNat

def word? (d : Document) : Option UInt16 := (d.natBelow? UInt16.size).map UInt16.ofNat

def list? : Document → Option (List Document)
  | list items => some items
  | _ => none

/-- The name of a choice, alone or as the only field of a record, with no value. -/
def choice? : Document → Option String
  | text name => some name
  | record [(name, null)] => some name
  | _ => none

/-- The item whose name is chosen. -/
def oneOf? {α : Type} (items : List α) (name : α → String) (d : Document) : Option α := do
  let chosen ← d.choice?
  items.find? fun a => name a == chosen

def byte (b : UInt8) : Document := number b.toNat

def word (w : UInt16) : Document := number w.toNat

end Document

open Document

/-! ### Chips -/

/-- The name of a chip in a document. -/
def Chip.documentName : Chip → String
  | bcm5325E => "Bcm5325E"
  | bcm5325F => "Bcm5325F"
  | bcm5325M => "Bcm5325M"
  | bcm5395 => "Bcm5395"
  | bcm5397 => "Bcm5397"
  | bcm5398 => "Bcm5398"
  | bcm53115 => "Bcm53115"
  | bcm53125 => "Bcm53125"

def Identity.toDocument (i : Identity) : Document :=
  record [("chip_id", Document.text i.chip.documentName), ("core_revision", byte i.revision)]

def Identity.ofDocument? (d : Document) : Option Identity := do
  match ← d.fields? ["chip_id", "core_revision"] with
  | [chip, revision] => return ⟨← chip.oneOf? Chip.all Chip.documentName, ← revision.byte?⟩
  | _ => none

/-! ### Configurations -/

def PortConfig.toDocument (p : PortConfig) : Document :=
  record [("pvid", word p.pvid), ("egress_tagged", flag p.tagged)]

def PortConfig.ofDocument? (d : Document) : Option PortConfig := do
  match ← d.fields? ["pvid", "egress_tagged"] with
  | [pvid, tagged] => return ⟨← pvid.word?, ← tagged.flag?⟩
  | _ => none

def VlanEntry.toDocument (e : VlanEntry) : Document :=
  record [("members", word (UInt16.ofBitVec e.members)), ("valid", flag e.valid)]

def VlanEntry.ofDocument? (d : Document) : Option VlanEntry := do
  match ← d.fields? ["members", "valid"] with
  | [members, valid] => return ⟨(← members.word?).toBitVec, ← valid.flag?⟩
  | _ => none

def Config.toDocument (c : Config) : Document :=
  record [("identity", c.identity.toDocument), ("vlan_enabled", flag c.vlanEnabled),
    ("vlan_base", word c.vlanBase),
    ("ports", list (c.ports.map PortConfig.toDocument)), ("vlans", list (c.vlans.map VlanEntry.toDocument))]

def Config.ofDocument? (d : Document) : Option Config := do
  match ← d.fields? ["identity", "vlan_enabled", "vlan_base", "ports", "vlans"] with
  | [identity, enabled, base, ports, vlans] =>
    return {
      identity := ← Identity.ofDocument? identity
      vlanEnabled := ← enabled.flag?
      vlanBase := ← base.word?
      ports := ← (← ports.list?).mapM PortConfig.ofDocument?
      vlans := ← (← vlans.list?).mapM VlanEntry.ofDocument? }
  | _ => none

/-! ### Links -/

def Speed.all : List Speed := [.mbps10, .mbps100, .mbps1000]

def Speed.documentName : Speed → String
  | mbps10 => "Mbps10"
  | mbps100 => "Mbps100"
  | mbps1000 => "Mbps1000"

def Duplex.all : List Duplex := [.half, .full]

def Duplex.documentName : Duplex → String
  | half => "Half"
  | full => "Full"

def PortLink.toDocument (l : PortLink) : Document :=
  record [("port", byte l.port), ("link", flag l.up), ("speed", Document.text l.speed.documentName),
    ("duplex", Document.text l.duplex.documentName)]

def PortLink.ofDocument? (d : Document) : Option PortLink := do
  match ← d.fields? ["port", "link", "speed", "duplex"] with
  | [port, up, speed, duplex] =>
    return ⟨← port.byte?, ← up.flag?, ← speed.oneOf? Speed.all Speed.documentName,
      ← duplex.oneOf? Duplex.all Duplex.documentName⟩
  | _ => none

/-! ### What is written is read back -/

theorem Document.byte?_byte (b : UInt8) : (byte b).byte? = some b := by
  have h : (b.toNat : Int) < 256 := by have := b.toNat_lt; omega
  simp [byte, byte?, natBelow?, h]

theorem Document.word?_word (w : UInt16) : (word w).word? = some w := by
  have h : (w.toNat : Int) < 65536 := by have := w.toNat_lt; omega
  simp [word, word?, natBelow?, h]

theorem Document.mapM_map {α β : Type} {f : α → β} {g : β → Option α} (h : ∀ a, g (f a) = some a)
    (items : List α) :
    (items.map f).mapM g = some items := by
  induction items with
  | nil => rfl
  | cons a items ih => simp [h, ih]

theorem Identity.ofDocument?_toDocument (i : Identity) : ofDocument? i.toDocument = some i := by
  obtain ⟨chip, revision⟩ := i
  have h : (Document.text chip.documentName).oneOf? Chip.all Chip.documentName = some chip := by
    cases chip <;> rfl
  simp [ofDocument?, toDocument, fields?, List.lookup_cons, h, byte?_byte]

theorem PortConfig.ofDocument?_record (pvid tagged : Document) :
    ofDocument? (record [("pvid", pvid), ("egress_tagged", tagged)]) =
      pvid.word?.bind fun v => tagged.flag?.bind fun t => some ⟨v, t⟩ := rfl

theorem PortConfig.ofDocument?_toDocument (p : PortConfig) : ofDocument? p.toDocument = some p := by
  rw [toDocument, ofDocument?_record, word?_word]
  rfl

theorem VlanEntry.ofDocument?_record (members valid : Document) :
    ofDocument? (record [("members", members), ("valid", valid)]) =
      members.word?.bind fun m => valid.flag?.bind fun v => some ⟨m.toBitVec, v⟩ := rfl

theorem VlanEntry.ofDocument?_toDocument (e : VlanEntry) : ofDocument? e.toDocument = some e := by
  rw [toDocument, ofDocument?_record, word?_word]
  rfl

theorem Config.ofDocument?_toDocument (c : Config) : ofDocument? c.toDocument = some c := by
  simp [ofDocument?, toDocument, fields?, List.lookup_cons, Identity.ofDocument?_toDocument,
    word?_word, flag?, list?,
    mapM_map PortConfig.ofDocument?_toDocument, mapM_map VlanEntry.ofDocument?_toDocument]

theorem PortLink.ofDocument?_toDocument (l : PortLink) : ofDocument? l.toDocument = some l := by
  obtain ⟨port, up, speed, duplex⟩ := l
  have hs : (Document.text speed.documentName).oneOf? Speed.all Speed.documentName = some speed := by
    cases speed <;> rfl
  have hd : (Document.text duplex.documentName).oneOf? Duplex.all Duplex.documentName = some duplex := by
    cases duplex <;> rfl
  simp [ofDocument?, toDocument, fields?, List.lookup_cons, byte?_byte, flag?, hs, hd]

end EtherSwitch
