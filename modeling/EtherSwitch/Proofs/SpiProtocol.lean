import EtherSwitch.Proofs.Conversations
import EtherSwitch.Proofs.Limbs
import EtherSwitch.Proofs.Spi

/-! The protocol of register accesses over SPI. Whatever the bus answers, an access has a conversation that the
    protocol describes, or one cut off at the first refusal, which is its answer
    (`SpiFrames.spi_keeps_protocol`). -/

namespace EtherSwitch

theorem SpiBus.exists_passed (c : SpiBus.Call) : ∃ a, Exchange.Passed (I := SpiBus) ⟨c, a⟩ := by
  cases c with
  | write bytes =>
    refine ⟨.ok (), ?_⟩
    rintro e ⟨_, ⟨⟩, ⟨⟩⟩
  | transfer bytes length =>
    refine ⟨.ok [], ?_⟩
    rintro e ⟨_, ⟨⟩, ⟨⟩⟩
  | delay micros =>
    refine ⟨(), ?_⟩
    rintro e ⟨_, ⟨⟩, -⟩

namespace SpiFrames
variable {α β σ : Type}

/-- A frame that was sent. -/
def sent (bytes : List UInt8) : Exchange SpiBus := ⟨.write bytes, .ok ()⟩

/-- A read of one byte of a register that was answered. -/
def received (register : UInt8) (bytes : List UInt8) : Exchange SpiBus :=
  ⟨.transfer [0x60, register] 1, .ok bytes⟩

def paused (micros : Nat) : Exchange SpiBus := ⟨.delay micros, ()⟩

/-- The byte that an answer shows. -/
def shown (bytes : List UInt8) : UInt8 := bytes.headD 0

/-- The status acknowledges the read. -/
def Acknowledges (status : List UInt8) : Prop := shown status &&& 0x20 ≠ 0

/-- The conversation of an access that meets no refusal, and its answer. The data is there least significant
    byte first. -/
def Protocol : (c : Registers.Call) → List (Exchange SpiBus) → Registers.Answer c → Prop
  | .read a, talk, answer =>
    ∃ (touched : List UInt8) (wait : Wait (List UInt8)), wait.Ended Acknowledges 10 ∧
      let asked := sent [0x61, 0xff, a.location.page] :: received a.location.offset touched ::
        wait.exchanges (received 0xfe) (paused 1000)
      if wait.last = none then talk = asked ∧ answer = .error (.spiTimeout a.location)
      else
        ∃ data : List (List UInt8), data.length = a.width.bits / 8 ∧
          talk = asked ++
            (List.zipWith (fun i => received (0xf0 + UInt8.ofNat i))
              (List.range (a.width.bits / 8)) data).reverse ∧
          answer = .ok (BitVec.ofNat 64 (Nat.ofDigits (2 ^ 8) (data.map fun bytes => (shown bytes).toNat)))
  | .write a value, talk, answer =>
    talk = [sent [0x61, 0xff, a.location.page],
      sent (0x61 :: a.location.offset :: (List.range (a.width.bits / 8)).map fun i =>
        UInt8.ofNat (value.toNat % 2 ^ a.width.bits / 2 ^ (8 * i)))] ∧
    answer = .ok ()

/-- Without refusals the transaction can have this conversation and end with this answer. -/
def Talks (t : Transaction α) (talk : List (Exchange SpiBus)) (x : Except Error α) : Prop :=
  Program.Converses Exchange.Passed t.run talk x

/-- Without refusals the transaction goes through, with a conversation and a result as `D` says. -/
def Succeeds (t : Transaction α) (D : List (Exchange SpiBus) → α → Prop) : Prop :=
  ∀ talk x, Talks t talk x → ∃ a, x = .ok a ∧ D talk a

theorem Talks.pure {a : α} {talk : List (Exchange SpiBus)} {x : Except Error α} (h : Talks (pure a) talk x) :
    talk = [] ∧ x = .ok a := h

theorem Talks.bind {t : Transaction α} {f : α → Transaction β} {talk : List (Exchange SpiBus)}
    {x : Except Error β} (h : Talks (t >>= f) talk x) :
    (∃ e, Talks t talk (.error e) ∧ x = .error e) ∨
      ∃ a first rest, talk = first ++ rest ∧ Talks t first (.ok a) ∧ Talks (f a) rest x := by
  obtain ⟨first, answer, rest, rfl, ht, hf⟩ := Program.Converses.bind (p := t.run) (f := ExceptT.bindCont f) h
  cases answer with
  | ok a => exact Or.inr ⟨a, first, rest, rfl, ht, hf⟩
  | error e =>
    obtain ⟨rfl, rfl⟩ := hf
    rw [List.append_nil]
    exact Or.inl ⟨e, ht, rfl⟩

theorem Talks.bind_of {t : Transaction α} {f : α → Transaction β} {D : List (Exchange SpiBus) → α → Prop}
    (ht : Succeeds t D) {talk : List (Exchange SpiBus)} {x : Except Error β} (h : Talks (t >>= f) talk x) :
    ∃ a first rest, talk = first ++ rest ∧ D first a ∧ Talks (f a) rest x := by
  rcases h.bind with ⟨e, hfail, -⟩ | ⟨a, first, rest, htalk, hfirst, hrest⟩
  · obtain ⟨_, ha, -⟩ := ht _ _ hfail
    cases ha
  · obtain ⟨b, hb, hD⟩ := ht _ _ hfirst
    obtain rfl := Except.ok.inj hb
    exact ⟨a, first, rest, htalk, hD, hrest⟩

theorem succeeds_send (bytes : List UInt8) : Succeeds (send bytes) fun talk _ => talk = [sent bytes] := by
  intro talk x h
  obtain ⟨answer, rfl, hpass, rfl⟩ := Program.Converses.single h
  cases answer with
  | ok a => exact ⟨a, rfl, rfl⟩
  | error e => exact (hpass e ⟨_, rfl, rfl⟩).elim

theorem succeeds_delay (micros : Nat) : Succeeds (delay micros) fun talk _ => talk = [paused micros] := by
  intro talk x h
  obtain ⟨answer, rfl, -, rfl⟩ := Program.Converses.single h
  exact ⟨(), rfl, rfl⟩

theorem succeeds_readByte (register : UInt8) :
    Succeeds (readByte register) fun talk byte => ∃ bytes, talk = [received register bytes] ∧
      byte = shown bytes := by
  intro talk x h
  obtain ⟨answer, rfl, hpass, rfl⟩ := Program.Converses.single h
  cases answer with
  | ok bytes => exact ⟨_, rfl, bytes, rfl, rfl⟩
  | error e => exact (hpass e ⟨_, rfl, rfl⟩).elim

theorem succeeds_readBytes (places : List Nat) :
    Succeeds (places.mapM fun i => readByte (dataRegister i)) fun talk bytes => ∃ data : List (List UInt8),
      data.length = places.length ∧ talk = List.zipWith (fun i => received (dataRegister i)) places data ∧
      bytes = data.map shown := by
  induction places with
  | nil =>
    intro talk x h
    rw [List.mapM_nil] at h
    obtain ⟨rfl, rfl⟩ := Talks.pure h
    exact ⟨[], rfl, [], rfl, rfl, rfl⟩
  | cons i places ih =>
    intro talk x h
    rw [List.mapM_cons] at h
    obtain ⟨_, _, rest, rfl, ⟨bytes, rfl, rfl⟩, hrest⟩ := h.bind_of (succeeds_readByte _)
    obtain ⟨_, _, rest, rfl, ⟨data, hlen, rfl, rfl⟩, hlast⟩ := hrest.bind_of ih
    obtain ⟨rfl, rfl⟩ := Talks.pure hlast
    exact ⟨_, rfl, bytes :: data, congrArg (· + 1) hlen, by simp, rfl⟩

theorem succeeds_collect (count : Nat) :
    Succeeds (collect count) fun talk bytes => ∃ data : List (List UInt8), data.length = count ∧
      talk = (List.zipWith (fun i => received (dataRegister i)) (List.range count) data).reverse ∧
      bytes.reverse = data.map shown := by
  intro talk x h
  obtain ⟨bytes, rfl, data, hlen, rfl, rfl⟩ := succeeds_readBytes _ _ _ h
  rw [List.length_reverse, List.length_range] at hlen
  refine ⟨_, rfl, data.reverse, by rw [List.length_reverse, hlen], ?_, List.map_reverse.symm⟩
  rw [List.reverse_zipWith (by rw [List.length_range, List.length_reverse, hlen]), List.reverse_reverse]

/-- Without refusals a read is acknowledged, or given up after all the polls that it is granted. -/
theorem await_talks {location : Location} {polls : Nat} {talk : List (Exchange SpiBus)} {x : Except Error Unit}
    (h : Talks (awaitAcknowledge location polls) talk x) :
    ∃ wait : Wait (List UInt8), wait.Ended Acknowledges polls ∧
      talk = wait.exchanges (received 0xfe) (paused 1000) ∧
      x = if wait.last = none then .error (.spiTimeout location) else .ok () := by
  induction polls generalizing talk with
  | zero =>
    obtain ⟨rfl, rfl⟩ := h
    exact ⟨_, Wait.ended_zero, rfl, rfl⟩
  | succ polls ih =>
    rw [awaitAcknowledge] at h
    obtain ⟨_, _, rest, rfl, ⟨bytes, rfl, rfl⟩, hrest⟩ := h.bind_of (succeeds_readByte _)
    split at hrest
    next hack =>
      obtain ⟨rfl, rfl⟩ := hrest.pure
      exact ⟨_, Wait.ended_now hack, rfl, rfl⟩
    next hbusy =>
      obtain ⟨_, _, later, rfl, rfl, hlater⟩ := hrest.bind_of (succeeds_delay _)
      obtain ⟨wait, hwait, rfl, rfl⟩ := ih hlater
      exact ⟨_, hwait.later hbusy, rfl, rfl⟩

theorem protocol_read (a : Address) {talk : List (Exchange SpiBus)} {x : Except Error (BitVec 64)}
    (h : Talks (read a) talk x) :
    Protocol (.read a) talk x := by
  obtain ⟨_, _, rest, rfl, rfl, htouch⟩ := h.bind_of (succeeds_send _)
  obtain ⟨_, _, rest, rfl, ⟨touched, rfl, -⟩, hrest⟩ := htouch.bind_of (succeeds_readByte _)
  rcases hrest.bind with ⟨e, hfail, rfl⟩ | ⟨_, first, rest, rfl, hwait, hcollect⟩
  · obtain ⟨wait, hended, rfl, hx⟩ := await_talks hfail
    refine ⟨touched, wait, hended, ?_⟩
    split at hx
    next hvain =>
      cases hx
      rw [if_pos hvain]
      exact ⟨rfl, rfl⟩
    next => cases hx
  · obtain ⟨wait, hended, rfl, hx⟩ := await_talks hwait
    refine ⟨touched, wait, hended, ?_⟩
    split at hx
    next => cases hx
    next hgo =>
      rw [if_neg hgo]
      rw [a.width.bytes_eq] at hcollect
      obtain ⟨bytes, _, rest, rfl, ⟨data, hlen, rfl, hbytes⟩, hlast⟩ := hcollect.bind_of (succeeds_collect _)
      obtain ⟨rfl, rfl⟩ := hlast.pure
      refine ⟨data, hlen, ?_, ?_⟩
      · rw [List.append_nil]
        rfl
      · rw [hbytes, Word.ofLimbs_eq_ofDigits, List.map_map, List.map_map]
        rfl

theorem protocol_write (a : Address) (value : BitVec 64) {talk : List (Exchange SpiBus)} {x : Except Error Unit}
    (h : Talks (write a value) talk x) : Protocol (.write a value) talk x := by
  obtain ⟨_, _, rest, rfl, rfl, hrest⟩ := h.bind_of (succeeds_send _)
  obtain ⟨_, rfl, rfl⟩ := succeeds_send _ _ _ hrest
  refine ⟨?_, rfl⟩
  rw [valueBytes, ← Word.limbs_truncate a.width (Nat.le_refl (8 * a.width.bytes)), Word.limbs_eq_digits,
    Width.toNat_truncate, List.map_map, a.width.bytes_eq]
  rfl

theorem protocol_layer {c : Registers.Call} {talk : List (Exchange SpiBus)} {v : Registers.Answer c × Unit}
    (h : ((layer c).run ()).Converses Exchange.Passed talk v) : Protocol c talk v.1 := by
  cases c with
  | read a =>
    obtain ⟨first, answer, rest, rfl, hfirst, rfl, rfl⟩ :=
      Program.Converses.bind (p := (read a).run) (f := fun answer => Program.done (answer, ())) h
    rw [List.append_nil]
    exact protocol_read a hfirst
  | write a value =>
    obtain ⟨first, answer, rest, rfl, hfirst, rfl, rfl⟩ :=
      Program.Converses.bind (p := (write a value).run) (f := fun answer => Program.done (answer, ())) h
    rw [List.append_nil]
    exact protocol_write a value hfirst

/-- Whatever the bus answers, an access has a conversation as the protocol says and its answer, or one cut
    off at the first refusal, which is its answer. -/
theorem spi_keeps_protocol (d : Device SpiBus σ) (c : Registers.Call) (bus : σ) :
    let talk := ((layer c).run ()).exchanges d bus
    let answer := (layer.device d c ((), bus)).1
    Protocol c talk answer ∨
      ∃ e whole answer', Protocol c whole answer' ∧ CutOff whole talk e ∧
        Exchange.Refused (I := Registers) ⟨c, answer⟩ (.io e) := by
  have hrun := ((layer c).run ()).converses_run d bus
  rcases (prompt_layer c).whole_or_cut SpiBus.exists_passed hrun with hwhole |
    ⟨e, whole, v, hwhole, hcut, hrefused⟩
  · exact Or.inl (protocol_layer hwhole)
  · exact Or.inr ⟨e, whole, v.1, protocol_layer hwhole, hcut, hrefused⟩

end SpiFrames

end EtherSwitch
