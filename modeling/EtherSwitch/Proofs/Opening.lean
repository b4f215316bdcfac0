import EtherSwitch.Proofs.Conversations
import EtherSwitch.Proofs.Discovery
import EtherSwitch.Proofs.Parameters
import EtherSwitch.Transport.Handle

/-! Opening a simulated chip by a transport string, and working with its handle. What is in the way, and which
    chip comes up, follows from the last values of three options. Both buses lead to the store alike, so a
    client that leaves SPI's own registers alone cannot tell them apart (`openSwitch_simulated`). -/

namespace EtherSwitch

namespace Switch

/-- A raw access is to a register below those that SPI keeps for itself. -/
def Operation.Tame : Operation → Prop
  | .readRegister a => a.location.offset < 0xf0
  | .writeRegister a _ => a.location.offset < 0xf0
  | _ => True

theorem plain_of_lt {c : Registers.Call} (h : c.address.location.offset < 0xf0) : Engine.Plain c := by
  have hhigh : SpiFrames.reserved.all (¬· < 0xf0) := by decide
  exact fun hreserved => of_decide_eq_true (List.all_eq_true.mp hhigh _ hreserved) h

/-- A tame operation makes only accesses that SPI serves as MDIO does. -/
theorem calls_plain {c : Config} (hc : c.WellFormed) {op : Operation} (hop : op.Tame) :
    Program.Calls Engine.Plain ((layer op).run c) := by
  have hmode : ∀ call : Registers.Call, call.address.location = Layout.switchMode →
      Engine.Plain call := fun call hcall =>
    plain_of_lt (hcall ▸ by decide)
  have hlow : ∀ l ∈ Layout.statusRegisters, l.offset < 0xf0 := by decide
  have hlink : ∀ l ∈ Layout.statusRegisters, ∀ w : Width, Engine.Plain (.read ⟨l, w⟩) :=
    fun l hl w => plain_of_lt (hlow l hl)
  cases op with
  | config | setVlanEnabled on => trivial
  | setVlanBase base => exact calls_change _
  | portPvid port => exact calls_look _
  | setPortPvid port vid => exact calls_change _
  | vlanPorts index => exact calls_look _
  | setVlanPorts index members => exact calls_change _
  | applyConfig => exact calls_script (uses_applyConfig hc)
  | resetSwitch =>
    exact calls_script (f := fun c => do c.chip.family.reset c.chip; applyConfig c) (uses_resetSwitch c)
  | portLink port => exact calls_script (uses_portLink hlink c port)
  | portLinks => exact calls_script (uses_portLinks hlink c)
  | setManaged on => exact calls_script (uses_setManaged hmode on)
  | readRegister a => exact calls_script (Script.uses_read (plain_of_lt hop))
  | writeRegister a value => exact calls_script (Script.uses_write (plain_of_lt hop))

end Switch

namespace Transport

/-! ### Simulated chips -/

/-- The buses of a simulated chip. -/
inductive Bus where
  | mdio | spi
  deriving DecidableEq, Repr

namespace Bus

def engine : Bus → Engine
  | mdio => .mdio {}
  | spi => .spi

/-- A connection to a chip over the bus; over SPI no operation is ever counted. -/
def connection : Bus → Nat × Simulation → Connection
  | mdio, s => .simulatedMdio s.1 s.2
  | spi, s => .simulatedSpi s.2

variable {α σ : Type}

/-- Over a connection to a simulated chip a program runs as on the chip, and asks nothing of the kernel. -/
theorem run_connection (bus : Bus) (p : Program Registers α) (s : Nat × Simulation) :
    (bus.connection s).run p =
      .done ((Program.run bus.engine.device p s).1, bus.connection (Program.run bus.engine.device p s).2) := by
  induction p generalizing s with
  | done a => rfl
  | ask c k ih =>
    have hstep : Connection.layer c (bus.connection s) =
        .done ((bus.engine.device c s).1, bus.connection (bus.engine.device c s).2) := by
      cases bus <;> rfl
    show (Connection.layer c (bus.connection s) >>= fun r => r.2.run (k r.1)) = _
    rw [hstep]
    exact ih _ _

theorem serves_plain (bus : Bus) {c : Registers.Call} (hc : Engine.Plain c) : bus.engine.Serves {} c := by
  cases bus with
  | mdio => exact ⟨rfl, Or.inl rfl⟩
  | spi => exact ⟨rfl, hc⟩

end Bus

/-! ### Handles -/

/-- An operation through a handle on a simulated chip is one on the chip, and asks nothing of the kernel. -/
theorem Handle.run_layer (bus : Bus) (transport : String) (u : Nat × Simulation) (config : Config)
    (op : Switch.Operation) :
    (Handle.layer op).run ⟨transport, bus.connection u, config⟩ =
      .done ((Switch.layer.device bus.engine.device op (config, u)).1,
        ⟨transport, bus.connection (Switch.layer.device bus.engine.device op (config, u)).2.2,
          (Switch.layer.device bus.engine.device op (config, u)).2.1⟩) := by
  show ((bus.connection u).run ((Switch.layer op).run config) >>= _) = _
  rw [bus.run_connection]
  rfl

/-- The handle is on a simulated chip with nothing wrong, and holds the configuration and the store. -/
structure Handle.Shows (h : Handle) (t : Config × Store) : Prop where
  config : h.config = t.1
  reachable : t.1.Reachable
  chip : ∃ bus u, h.connection = Bus.connection bus u ∧ bus.engine.Mirrors {} u t.2

/-- A tame operation through the handle is one on the store. -/
theorem Handle.Shows.perform {σ : Type} {h : Handle} {t : Config × Store} (hh : h.Shows t)
    {op : Switch.Operation} (hop : op.Tame) (k : Device Kernel σ) (s : σ) :
    (Handle.layer.device k op (h, s)).1 = (Switch.layer.device Store.device op t).1 ∧
      (Handle.layer.device k op (h, s)).2.1.Shows (Switch.layer.device Store.device op t).2 := by
  obtain ⟨transport, connection, config⟩ := h
  obtain ⟨_, store⟩ := t
  obtain ⟨rfl, hreachable, bus, u, rfl, hmirrors⟩ := hh
  obtain ⟨hanswer, hend⟩ := Program.run_congr_of_calls
    (fun c s t hc hr => Engine.device_mirrors (bus.serves_plain hc) hr)
    (Switch.calls_plain hreachable.wellFormed hop) hmirrors
  rw [Layer.device, Handle.run_layer, Program.run_done]
  exact ⟨congrArg Prod.fst hanswer, congrArg Prod.snd hanswer, hreachable.perform _ op store, bus, _, rfl, hend⟩

/-- Two handles that hold the same configuration and store answer any tame client alike. -/
theorem Handle.Shows.exchanges_eq {α σ : Type} {h h' : Handle} {t : Config × Store} (hh : h.Shows t)
    (hh' : h'.Shows t)
    (k : Device Kernel σ) (s : σ) {client : Program Switch α} (htame : client.Calls Switch.Operation.Tame) :
    client.exchanges (Handle.layer.device k) (h, s) = client.exchanges (Handle.layer.device k) (h', s) := by
  have hstore : ∀ h : Handle, h.Shows t → client.exchanges (Handle.layer.device k) (h, s) =
      client.exchanges (Switch.layer.device Store.device) t := fun h hh =>
    Program.exchanges_congr_of_calls (R := fun u t => u.1.Shows t)
      (fun op u t hop hu => hu.perform hop k u.2) htame hh
  rw [hstore h hh, hstore h' hh']

/-! ### Opening -/

/-- The number that a chip value stands for. -/
def chipNumber? (text : String) : Option Nat := Numeral.parse? 16 UInt16.size (stripHexMarks text.toList)

/-- What the options of a simulated chip ask for. -/
def asked (pieces : List (List Char)) : Model where
  deviceId := (lastValue "chip" pieces).elim 0x95 fun text => BitVec.ofNat 16 ((chipNumber? text).getD 0)
  vlanControl4 := (lastValue "vc4" pieces).elim 0 fun text =>
    BitVec.ofNat 8 ((Numeral.parse? 10 UInt8.size text.toList).getD 0)

/-- The objection to a chip value that is no 16-bit number. -/
def chipObjection? (pieces : List (List Char)) : Option OpenError :=
  (lastValue "chip" pieces).bind fun text => if chipNumber? text = none then some (.chipId text) else none

/-- The objection to a VLAN control 4 value that is no 8-bit number. -/
def controlObjection? (pieces : List (List Char)) : Option OpenError :=
  (lastValue "vc4" pieces).bind fun text =>
    if Numeral.parse? 10 UInt8.size text.toList = none then some (.vlanControl4 text) else none

/-- The objection to a bus that is neither of the two. -/
def busObjection? (pieces : List (List Char)) : Option OpenError :=
  (lastValue "transport" pieces).bind fun name => if name = "mdio" ∨
    name = "spi" then none else some (.simulatedBus name)

/-- The objection to numbers that name no chip. -/
def unknownChip? (pieces : List (List Char)) : Option OpenError :=
  if (asked pieces).chip? = none then some (.switch (.unknownChip (asked pieces).deviceId)) else none

/-- The first thing that stands against opening a simulated chip. -/
def objection? (pieces : List (List Char)) : Option OpenError :=
  [(malformed? pieces).map fun p => .params (.malformedOption (String.ofList p)), chipObjection? pieces,
    controlObjection? pieces, busObjection? pieces, unknownChip? pieces].findSome? id

def askedBus (pieces : List (List Char)) : Bus :=
  if lastValue "transport" pieces = some "spi" then .spi else .mdio

section
variable {options : List (String × String)} {pieces : List (List Char)}
    (h : ∀ key, option? options key = lastValue key pieces)
include h

theorem modelOfOptions_eq :
    modelOfOptions options =
      match (chipObjection? pieces).or (controlObjection? pieces) with
      | some e => .error e
      | none => .ok (asked pieces) := by
  rw [modelOfOptions, h, h, asked, chipObjection?, controlObjection?]
  rcases lastValue "chip" pieces with _ | chip <;> rcases lastValue "vc4" pieces with _ | control
  · rfl
  · cases hcontrol : Numeral.parse? 10 UInt8.size control.toList <;> simp [hcontrol] <;> rfl
  · cases hid : Numeral.parse? 16 UInt16.size (stripHexMarks chip.toList) <;> simp [chipNumber?, hid] <;> rfl
  · cases hid : Numeral.parse? 16 UInt16.size (stripHexMarks chip.toList) <;>
      cases hcontrol : Numeral.parse? 10 UInt8.size control.toList <;> simp [chipNumber?, hid, hcontrol] <;> rfl

theorem connectSimulated_eq :
    connectSimulated options =
      match ((chipObjection? pieces).or (controlObjection? pieces)).or (busObjection? pieces) with
      | some e => .error e
      | none => .ok ((askedBus pieces).connection (0, .new (asked pieces))) := by
  rw [connectSimulated, modelOfOptions_eq h, h, busObjection?, askedBus]
  cases (chipObjection? pieces).or (controlObjection? pieces) with
  | some e => rfl
  | none =>
    cases lastValue "transport" pieces with
    | none => rfl
    | some name =>
      by_cases hmdio : name = "mdio"
      · subst hmdio
        rfl
      · by_cases hspi : name = "spi"
        · subst hspi
          rfl
        · simp [hmdio, hspi]
          rfl

end

theorem ofText_simulated {text : String} (hname : before ':' text.toList = "dummy".toList) :
    Params.ofText text =
      match malformed? (optionPieces text.toList) with
      | some p => .error (.malformedOption (String.ofList p))
      | none => .ok ⟨"dummy", takeAll [] (optionPieces text.toList)⟩ := by
  have hsome : "dummy".toList ≠ [] := by decide
  have hread := ofText_eq text
  rw [hname, if_neg hsome, String.ofList_toList] at hread
  refine hread.trans ?_
  cases malformed? (optionPieces text.toList) <;> rfl

theorem connect_simulated (options : List (String × String)) :
    (connect ⟨"dummy", options⟩).run =
      .done ((connectSimulated options).map fun connection => (simulated, connection)) := by
  have hname : simulated.answersTo "dummy" = true := by decide
  rw [connect, if_pos hname]
  cases connectSimulated options <;> rfl

/-- Opening a simulated chip stops at what is wrong with the text or the options, or brings the chip up. -/
theorem run_openSwitch {text : String} (hname : before ':' text.toList = "dummy".toList) :
    (openSwitch text).run =
      match malformed? (optionPieces text.toList) with
      | some p => .done (.error (.params (.malformedOption (String.ofList p))))
      | none =>
        match connectSimulated (takeAll [] (optionPieces text.toList)) with
        | .error e => .done (.error e)
        | .ok connection => do
          let (config, connection) ← connection.run Switch.register.run
          return (config.mapError .switch).map fun config => ⟨"dummy", connection, config⟩ := by
  rw [openSwitch, ofText_simulated hname]
  cases malformed? (optionPieces text.toList) with
  | some p => rfl
  | none =>
    show ((connect ⟨"dummy", takeAll [] (optionPieces text.toList)⟩).run >>= ExceptT.bindCont _) = _
    rw [connect_simulated]
    cases connectSimulated (takeAll [] (optionPieces text.toList)) <;> rfl

/-- The store of a chip that was just brought up. -/
def broughtUp (m : Model) : Store := (Script.runOn Store.device Switch.register m.store).2

/-- Bringing up a fresh chip that has nothing wrong goes over either bus as on its store. -/
theorem Bus.run_register (bus : Bus) {m : Model} (hfaults : m.faults = {}) :
    ∃ u, (bus.connection (0, .new m)).run Switch.register.run = .done (m.outcome, bus.connection u) ∧
      bus.engine.Mirrors {} u (broughtUp m) := by
  obtain ⟨hanswer, hend⟩ := Engine.runOn_mirrors (s := (0, .new m)) (t := m.store)
    (Switch.uses_register.mono fun _ hc => bus.serves_plain hc)
      ⟨rfl, hfaults, Or.inr (Simulation.reachable_new m).settled⟩
  rw [(Switch.runOn_register_store m).1] at hanswer
  refine ⟨_, ?_, hend⟩
  rw [bus.run_connection, ← hanswer]
  rfl

theorem outcome_asked (pieces : List (List Char)) :
    (asked pieces).outcome =
      match (asked pieces).chip? with
      | none => .error (.unknownChip (asked pieces).deviceId)
      | some chip => .ok (.initial ⟨chip, 0⟩) := rfl

/-- Opening a simulated chip fails with the first objection, or gives a handle on the chip
    that was asked for. -/
theorem openSwitch_shows {text : String} (hname : before ':' text.toList = "dummy".toList) :
    match objection? (optionPieces text.toList) with
    | some e => (openSwitch text).run = .done (.error e)
    | none => ∃ chip handle, (asked (optionPieces text.toList)).chip? = some chip ∧
      (openSwitch text).run = .done (.ok handle) ∧
        handle.transport = "dummy" ∧
          handle.Shows (.initial ⟨chip, 0⟩, broughtUp (asked (optionPieces text.toList))) := by
  have hoptions : ∀ key, option? (takeAll [] (optionPieces text.toList)) key =
      lastValue key (optionPieces text.toList) :=
    fun key => (option?_takeAll key [] _).trans Option.or_none
  rw [run_openSwitch hname, connectSimulated_eq hoptions, objection?]
  generalize optionPieces text.toList = pieces
  cases malformed? pieces with
  | some p => rfl
  | none =>
    have hfirst : ∀ a b c d : Option OpenError, [none, a, b, c, d].findSome? id = ((a.or b).or c).or d := by
      intro a b c d
      cases a <;> cases b <;> cases c <;> cases d <;> rfl
    simp only [Option.map_none, hfirst]
    cases ((chipObjection? pieces).or (controlObjection? pieces)).or (busObjection? pieces) with
    | some e => rfl
    | none =>
      obtain ⟨u, hrun, hmirrors⟩ := (askedBus pieces).run_register (m := asked pieces) rfl
      simp only [Option.none_or, hrun, unknownChip?, outcome_asked]
      cases (asked pieces).chip? with
      | none => rfl
      | some chip => exact ⟨chip, _, rfl, rfl, rfl, rfl, .initial _, _, u, rfl, hmirrors⟩

/-- Opening a simulated chip depends on its options alone: it fails with the first objection, or gives a handle
    on the chip that was asked for. Whichever bus that is on, any client is answered alike. -/
theorem openSwitch_simulated {text : String} (hname : before ':' text.toList = "dummy".toList) :
    (∀ e, objection? (optionPieces text.toList) = some e → (openSwitch text).run = .done (.error e)) ∧
    (objection? (optionPieces text.toList) = none →
      ∃ chip handle, (asked (optionPieces text.toList)).chip? = some chip ∧
        (openSwitch text).run = .done (.ok handle) ∧
        handle.transport = "dummy" ∧ handle.config = .initial ⟨chip, 0⟩ ∧
        ∀ text' handle', before ':' text'.toList = "dummy".toList →
          asked (optionPieces text'.toList) = asked (optionPieces text.toList) →
            (openSwitch text').run = .done (.ok handle') →
          ∀ {α σ : Type} (k : Device Kernel σ) (s : σ) (client : Program Switch α),
            client.Calls Switch.Operation.Tame →
            client.exchanges (Handle.layer.device k) (handle, s) =
              client.exchanges (Handle.layer.device k) (handle', s)) := by
  have hopened := openSwitch_shows hname
  refine ⟨fun e he => ?_, fun hnone => ?_⟩
  · rw [he] at hopened
    exact hopened
  · rw [hnone] at hopened
    obtain ⟨chip, handle, hchip, hrun, htransport, hshows⟩ := hopened
    refine ⟨chip, handle, hchip, hrun, htransport, hshows.config, ?_⟩
    intro text' handle' hname' hasked hrun' α σ k s client htame
    have hopened' := openSwitch_shows hname'
    split at hopened'
    next e _ => cases hrun'.symm.trans hopened'
    next _ =>
      obtain ⟨chip', handle'', hchip', hrun'', -, hshows'⟩ := hopened'
      cases hrun'.symm.trans hrun''
      rw [hasked] at hchip' hshows'
      cases hchip.symm.trans hchip'
      exact hshows.exchanges_eq hshows' k s htame

/-- Two ways to ask for a BCM53125, one on each bus. -/
theorem openSwitch_simulated_pair :
    before ':' "dummy:chip=95,chip=0x0x3125".toList = "dummy".toList ∧
    ∃ handle handle', (openSwitch "dummy:chip=95,chip=0x0x3125").run = .done (.ok handle) ∧
      (openSwitch "dummy:transport=spi,chip=3125").run = .done (.ok handle') ∧
      handle.config = .initial ⟨.bcm53125, 0⟩ ∧
      ∀ {α σ : Type} (k : Device Kernel σ) (s : σ) (client : Program Switch α),
        client.Calls Switch.Operation.Tame →
        client.exchanges (Handle.layer.device k) (handle, s) =
          client.exchanges (Handle.layer.device k) (handle', s) := by
  have hname : before ':' "dummy:chip=95,chip=0x0x3125".toList = "dummy".toList := by decide
  have hname' : before ':' "dummy:transport=spi,chip=3125".toList = "dummy".toList := by decide
  have hnone : objection? (optionPieces "dummy:chip=95,chip=0x0x3125".toList) = none := by decide +kernel
  have hnone' : objection? (optionPieces "dummy:transport=spi,chip=3125".toList) = none := by decide +kernel
  have hasked : asked (optionPieces "dummy:transport=spi,chip=3125".toList) =
      asked (optionPieces "dummy:chip=95,chip=0x0x3125".toList) := by decide +kernel
  have hfound : (asked (optionPieces "dummy:chip=95,chip=0x0x3125".toList)).chip? = some .bcm53125 := by
    decide +kernel
  obtain ⟨chip, handle, hchip, hrun, -, hconfig, halike⟩ := (openSwitch_simulated hname).2 hnone
  obtain ⟨-, handle', -, hrun', -⟩ := (openSwitch_simulated hname').2 hnone'
  obtain rfl := Option.some.inj (hchip.symm.trans hfound)
  exact ⟨hname, handle, handle', hrun, hrun', hconfig, halike _ _ hname' hasked hrun'⟩

end Transport

end EtherSwitch
