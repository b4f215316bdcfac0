import EtherSwitch.Proofs.MiiOptions
import EtherSwitch.Proofs.Transparency

/-! How an interface is addressed. Only a name that fits the name field of a request with a zero byte to spare
    comes to the kernel (`connect_makes_iff`), every request then carries it in full (`requests_carry`), and
    so no two interfaces share a request (`admits_addressable`). -/

namespace EtherSwitch

/-! ### Bytes -/

theorem toList_loop_eq (bytes : ByteArray) (i : Nat) (taken : List UInt8) :
    ByteArray.toList.loop bytes i taken = taken.reverse ++ bytes.data.toList.drop i := by
  fun_induction ByteArray.toList.loop bytes i taken with
  | case1 i taken hlt ih =>
    have hget : bytes.get! i = bytes.data.toList[i] := getElem!_pos bytes.data i hlt
    rw [ih, List.reverse_cons, List.append_assoc, List.singleton_append, hget, List.getElem_cons_drop]
  | case2 i taken hge =>
    rw [List.drop_eq_nil_of_le (Nat.le_of_not_lt hge), List.append_nil]

theorem toList_eq_data (bytes : ByteArray) : bytes.toList = bytes.data.toList := by
  rw [ByteArray.toList, toList_loop_eq, List.reverse_nil, List.nil_append, List.drop_zero]

/-- A text is known by its bytes. -/
theorem utf8_injective {a b : String} (h : a.toUTF8.toList = b.toUTF8.toList) : a = b := by
  rw [toList_eq_data, toList_eq_data, Array.toList_inj] at h
  exact String.toByteArray_inj.mp (ByteArray.ext h)

theorem utf8_empty : "".toUTF8.toList = [] := by decide +kernel

/-- The request of an MII call. -/
def Kernel.Call.request? : Kernel.Call → Option MiiRequest
  | .miiRead request => some request
  | .miiWrite request => some request
  | _ => none

namespace Mii

variable {σ τ : Type}

/-- The name is 1 to 15 bytes long and holds no zero byte. -/
structure Addressable (name : String) : Prop where
  some : 1 ≤ name.toUTF8.toList.length
  short : name.toUTF8.toList.length ≤ 15
  nonzero : 0 ∉ name.toUTF8.toList

/-- The request carries the name in full, and zero bytes behind it up to the size of the field. -/
structure CarriesName (name : String) (request : MiiRequest) : Prop where
  padded : ∃ zeros, 1 ≤ zeros ∧ request.name = name.toUTF8.toList ++ List.replicate zeros 0
  length : request.name.length = 16

/-- A read gives the request back under its name. -/
def KeepsNames (k : Device Kernel σ) : Prop :=
  ∀ request s request', (k (.miiRead request) s).1 = .ok request' → request'.name = request.name

/-- Opens the bus of an interface and runs a program on it. -/
def session {α : Type} (settings : Settings) (p : Program MdioBus α) : Program Kernel (Except OpenError α) := do
  match ← (connect settings).run with
  | .error e => return .error e
  | .ok port =>
    let (a, _) ← (p.through layer).run port
    return .ok a

/-- In a session on the interface an MII call with the request is made. -/
def Requests (k : Device Kernel σ) (settings : Settings) (request : MiiRequest) : Prop :=
  ∃ (α : Type) (p : Program MdioBus α) (s t : σ) (c : Kernel.Call),
    (session settings p).Makes k s c t ∧ c.request? = some request

/-! ### Names -/

theorem addressable_iff {name : String} : Addressable name ↔ name ≠ "" ∧ nameFits name = true := by
  have hsome : name ≠ "" ↔ 1 ≤ name.toUTF8.toList.length := by
    rw [Nat.one_le_iff_ne_zero, ne_eq, ne_eq, List.length_eq_zero_iff, not_iff_not]
    exact ⟨fun h => h ▸ utf8_empty, fun h => utf8_injective (h.trans utf8_empty.symm)⟩
  have hfits : nameFits name = true ↔ name.toUTF8.toList.length ≤ 15 ∧ 0 ∉ name.toUTF8.toList := by
    simp only [nameFits, nameSize, Bool.and_eq_true, decide_eq_true_eq, Bool.not_eq_true', List.contains_eq_mem,
      decide_eq_false_iff_not, Nat.lt_succ_iff]
  rw [hsome, hfits]
  exact ⟨fun h => ⟨h.some, h.short, h.nonzero⟩, fun ⟨hsome, hshort, hnonzero⟩ => ⟨hsome, hshort, hnonzero⟩⟩

theorem Addressable.carriesName {name : String} (h : Addressable name) {request : MiiRequest}
    (hname : request.name = nameField name) : CarriesName name request := by
  have hshort := h.short
  refine ⟨⟨nameSize - name.toUTF8.toList.length, ?_, hname⟩, ?_⟩
  · rw [nameSize]
    omega
  · rw [hname, nameField, List.length_append, List.length_replicate, nameSize]
    omega

/-- The name of a request ends where its zero bytes start. -/
theorem CarriesName.bytes {name : String} (hname : Addressable name) {request : MiiRequest}
    (h : CarriesName name request) :
    request.name.takeWhile (· ≠ 0) = name.toUTF8.toList := by
  obtain ⟨zeros, hzeros, hpadded⟩ := h.padded
  obtain ⟨zeros, rfl⟩ := Nat.exists_eq_add_of_le' hzeros
  rw [hpadded, List.takeWhile_append_of_pos fun b hb => decide_eq_true (ne_of_mem_of_not_mem hb hname.nonzero),
    List.replicate_succ, List.takeWhile_cons_of_neg (by simp), List.append_nil]

/-! ### The kernel -/

theorem connect_refuses {settings : Settings} (h : ¬Addressable settings.interface) :
    ∃ e, (connect settings).run = .done (.error e) := by
  rw [addressable_iff, not_and] at h
  by_cases hname : settings.interface = ""
  · refine ⟨.noInterface, ?_⟩
    simp only [connect, if_pos hname]
    rfl
  · refine ⟨.interfaceName settings.interface, ?_⟩
    have hfits : nameFits settings.interface = false := Bool.eq_false_iff.mpr (h hname)
    simp only [connect, if_neg hname, hfits]
    rfl

/-- The request that shows whether the interface answers. -/
def Settings.firstRequest (settings : Settings) : MiiRequest := settings.requestOf settings.phy idRegister 0

theorem connect_asks {settings : Settings} (h : Addressable settings.interface) :
    (connect settings).run = .ask .openSocket fun
      | .error e => .done (.error (.socket (.os e)))
      | .ok () => .ask (.miiRead settings.firstRequest) fun
        | .error e => .done (.error (.noMii settings.interface (.os e)))
        | .ok request => .done (.ok ⟨settings.interface, request⟩) := by
  obtain ⟨hname, hfits⟩ := addressable_iff.mp h
  simp only [connect, if_neg hname, hfits]
  refine congrArg (Program.ask (I := Kernel) .openSocket) (funext fun answer => ?_)
  cases answer with
  | error e => rfl
  | ok _ =>
    refine congrArg (Program.ask (I := Kernel) (.miiRead settings.firstRequest)) (funext fun answer => ?_)
    cases answer <;> rfl

theorem connect_makes_iff (settings : Settings) (k : Device Kernel σ) (s : σ) :
    (∃ t, (connect settings).run.Makes k s .openSocket t) ↔ Addressable settings.interface := by
  constructor
  · rintro ⟨t, hmakes⟩
    by_contra h
    obtain ⟨e, hrun⟩ := connect_refuses h
    rw [hrun] at hmakes
    exact hmakes
  · intro h
    rw [connect_asks h]
    exact ⟨s, Or.inl ⟨rfl, rfl⟩⟩

section
variable {k : Device Kernel σ} (hk : KeepsNames k)
include hk

/-- A call on the bus is one call of the kernel. It goes out under the name of the port and leaves the port with
    that name. -/
theorem layer_asks (c : MdioBus.Call) (port : Port) :
    ∃ (call : Kernel.Call) (next : Kernel.Answer call → MdioBus.Answer c × Port),
      (layer c).run port = .ask call (fun answer => .done (next answer)) ∧
        (∀ request, call.request? = some request → request.name = port.request.name) ∧
        ∀ s, (next (k call s).1).2.request.name = port.request.name := by
  cases c with
  | read phy register =>
    -- An answered read leaves the request of the answer in the port, a refused one its own.
    refine ⟨.miiRead (fill port.request phy register 0), fun
      | .ok request => (.ok request.valueOut, { port with request })
      | .error e => (.error (.os e), { port with request := fill port.request phy register 0 }),
        ?_, ?_, fun s => ?_⟩
    · refine congrArg (Program.ask (I := Kernel) _) (funext fun answer => ?_)
      cases answer <;> rfl
    · rintro request ⟨rfl⟩
      rfl
    · cases hanswer : (k (.miiRead (fill port.request phy register 0)) s).1 with
      | ok request => exact hk (fill port.request phy register 0) s request hanswer
      | error e => rfl
  | write phy register word =>
    refine ⟨.miiWrite (fill port.request phy register word),
      fun answer => (answer.mapError .os, { port with request := fill port.request phy register word }),
        rfl, ?_, fun _ => rfl⟩
    rintro request ⟨rfl⟩
    rfl
  | delay micros => exact ⟨.sleep micros, fun _ => ((), port), rfl, nofun, fun _ => rfl⟩

theorem names_through {α : Type} (p : Program MdioBus α) {port : Port} {s t : σ} {c : Kernel.Call}
    {request : MiiRequest}
    (hmakes : ((p.through layer).run port).Makes k s c t) (hrequest : c.request? = some request) :
    request.name = port.request.name := by
  -- The port changes from call to call, but for the name, so the induction is over every port at once.
  induction p generalizing port s with
  | done a => exact hmakes.elim
  | ask call next ih =>
    obtain ⟨asked, answered, hlayer, hname, hkept⟩ := layer_asks hk call port
    rw [Program.through, StateT.run_bind, hlayer] at hmakes
    rcases hmakes with ⟨rfl, -⟩ | hlater
    · exact hname request hrequest
    · exact (ih _ hlater).trans (hkept s)

theorem port_named {settings : Settings} {port : Port} {s : σ} (h : Addressable settings.interface)
    (hport : (Program.run k (connect settings).run s).1 = .ok port) :
    port.request.name = nameField settings.interface := by
  rw [connect_asks h, Program.run_ask] at hport
  cases hsocket : (k .openSocket s).1 with
  | error e =>
    rw [hsocket] at hport
    cases hport
  | ok _ =>
    rw [hsocket, Program.run_ask] at hport
    cases hanswer : (k (.miiRead settings.firstRequest) (k .openSocket s).2).1 with
    | error e =>
      rw [hanswer] at hport
      cases hport
    | ok request =>
      rw [hanswer] at hport
      cases hport
      exact hk settings.firstRequest _ request hanswer

end

theorem names_connect {k : Device Kernel σ} {settings : Settings} {s t : σ} {c : Kernel.Call}
    {request : MiiRequest} (h : Addressable settings.interface) (hmakes : (connect settings).run.Makes k s c t)
    (hrequest : c.request? = some request) : request.name = nameField settings.interface := by
  rw [connect_asks h] at hmakes
  rcases hmakes with ⟨rfl, -⟩ | hmakes
  · cases hrequest
  cases hsocket : (k .openSocket s).1 with
  | error e =>
    rw [hsocket] at hmakes
    exact hmakes.elim
  | ok _ =>
    rw [hsocket] at hmakes
    rcases hmakes with ⟨rfl, -⟩ | hmakes
    · rw [← Option.some.inj hrequest]
      rfl
    · cases hanswer : (k (.miiRead settings.firstRequest) (k .openSocket s).2).1 with
      | error e =>
        rw [hanswer] at hmakes
        exact hmakes.elim
      | ok request =>
        rw [hanswer] at hmakes
        exact hmakes.elim

theorem requests_carry {k : Device Kernel σ} (hk : KeepsNames k) {settings : Settings} {request : MiiRequest}
    (h : Requests k settings request) :
    Addressable settings.interface ∧ CarriesName settings.interface request := by
  obtain ⟨α, p, s, t, c, hmakes, hrequest⟩ := h
  rw [session, Program.makes_bind] at hmakes
  by_cases haddress : Addressable settings.interface
  · refine ⟨haddress, haddress.carriesName ?_⟩
    rcases hmakes with hopening | hsession
    · exact names_connect haddress hopening hrequest
    · cases hport : (Program.run k (connect settings).run s).1 with
      | error e =>
        rw [hport] at hsession
        exact hsession.elim
      | ok port =>
        rw [hport] at hsession
        rcases Program.makes_bind.mp hsession with hbus | hnone
        · exact (names_through hk p hbus hrequest).trans (port_named hk haddress hport)
        · exact hnone.elim
  · -- After a refused opening nothing is asked.
    obtain ⟨e, hrun⟩ := connect_refuses haddress
    rw [hrun] at hmakes
    exact (hmakes.elim id id).elim

theorem requests_differ {k : Device Kernel σ} {k' : Device Kernel τ} (hk : KeepsNames k) (hk' : KeepsNames k')
    {settings settings' : Settings} {request request' : MiiRequest} (h : Requests k settings request)
    (h' : Requests k' settings' request') (hne : settings.interface ≠ settings'.interface) :
    request.name ≠ request'.name := by
  intro hname
  obtain ⟨haddress, hcarries⟩ := requests_carry hk h
  obtain ⟨haddress', hcarries'⟩ := requests_carry hk' h'
  refine hne (utf8_injective ?_)
  rw [← hcarries.bytes haddress, ← hcarries'.bytes haddress', hname]

/-- Options make settings exactly if each PHY among them is an address and the last interface has a
    name, and with distinct keys they come to the same in every order. An interface is asked for a
    socket exactly if its name fits, and then each request to it carries that name in full, so that no
    two interfaces are addressed alike. -/
theorem admits_addressable :
    (∀ options, Settings.Reading options (Settings.ofOptions options)) ∧
    (∀ {options order : List (String × String)}, (options.map Prod.fst).Nodup → order.Perm options →
      Settings.ofOptions order = Settings.ofOptions options) ∧
    (∀ (settings : Settings) (k : Device Kernel σ) (s : σ),
      (∃ t, (connect settings).run.Makes k s .openSocket t) ↔ Addressable settings.interface) ∧
    (∀ {k : Device Kernel σ}, KeepsNames k →
      ∀ {settings : Settings} {request : MiiRequest}, Requests k settings request →
      CarriesName settings.interface request) ∧
    ∀ {k : Device Kernel σ} {k' : Device Kernel τ}, KeepsNames k → KeepsNames k' →
      ∀ {settings settings' : Settings} {request request' : MiiRequest},
        Requests k settings request → Requests k' settings' request' →
          settings.interface ≠ settings'.interface →
          request.name ≠ request'.name :=
  ⟨Settings.reading_options, fun hkeys hperm => Settings.ofOptions_of_perm hkeys hperm, connect_makes_iff,
    fun hk _ _ h => (requests_carry hk h).2, fun hk hk' _ _ _ _ h h' hne => requests_differ hk hk' h h' hne⟩

/-- Options with the highest PHY, written with a mark and a sign, and one that means nothing. -/
def scattered : List (String × String) := [("phy", "0X+1f"), ("speed", "fast"), ("iface", "lan0")]

/-- One session writes to a register, the other comes no further than opening the bus. -/
theorem admits_addressable_lan :
    let lan : Settings := ⟨"lan0", 0x1f⟩
    let wan : Settings := ⟨"wan0", 0x1e⟩
    let write : MiiRequest := lan.requestOf 0x1f 0x10 0xabcd
    (scattered.map Prod.fst).Nodup ∧ scattered.reverse.Perm scattered ∧
      Settings.ofOptions scattered.reverse = .ok lan ∧
      KeepsNames StandIn.kernel ∧ Requests StandIn.kernel lan write ∧
        Requests StandIn.kernel wan wan.firstRequest ∧
      lan.interface ≠ wan.interface ∧ CarriesName lan.interface write ∧ write.name ≠ wan.firstRequest.name := by
  intro lan wan write
  have hkeys : (scattered.map Prod.fst).Nodup := by decide
  have hperm : scattered.reverse.Perm scattered := List.reverse_perm scattered
  have hnames : KeepsNames StandIn.kernel := StandIn.models_kernel.names
  have hlan : Addressable lan.interface := by constructor <;> decide +kernel
  have hwan : Addressable wan.interface := by constructor <;> decide +kernel
  have hport : (Program.run StandIn.kernel (connect lan).run (Simulation.new .standard)).1 =
      .ok ⟨lan.interface, { lan.firstRequest with valueOut := 0xffff }⟩ := by
    rw [connect_asks hlan]
    rfl
  have hwrite : Requests StandIn.kernel lan write := by
    refine ⟨_, Program.call (I := MdioBus) (.write 0x1f 0x10 0xabcd), Simulation.new .standard,
      (Program.run StandIn.kernel (connect lan).run (Simulation.new .standard)).2, .miiWrite write, ?_, rfl⟩
    rw [session, Program.makes_bind, hport]
    exact Or.inr (Program.makes_bind.mpr (Or.inl (Or.inl ⟨rfl, rfl⟩)))
  have hopening : Requests StandIn.kernel wan wan.firstRequest := by
    refine ⟨Unit, .done (), Simulation.new .standard, Simulation.new .standard,
      .miiRead wan.firstRequest, ?_, rfl⟩
    rw [session, Program.makes_bind, connect_asks hwan]
    exact Or.inl (Or.inr (Or.inl ⟨rfl, rfl⟩))
  obtain ⟨-, hsame, -, hcarry, hdiffer⟩ := @admits_addressable Simulation Simulation
  have hread : Settings.ofOptions scattered.reverse = .ok lan := (hsame hkeys hperm).trans (by decide +kernel)
  have hne : lan.interface ≠ wan.interface := by decide
  exact ⟨hkeys, hperm, hread, hnames, hwrite, hopening, hne, hcarry hnames hwrite,
    hdiffer hnames hnames hwrite hopening hne⟩

end Mii

end EtherSwitch
