import EtherSwitch.Proofs.Conversations
import EtherSwitch.Proofs.Limbs
import EtherSwitch.Proofs.Mdio

/-! The protocol of register accesses over MDIO. Whatever the bus answers, an access has a conversation that the
    protocol describes, or one cut off at the first refusal, which is its answer. The count of operations
    that did not complete follows from the answers (`PseudoPhy.mdio_keeps_protocol`). -/

namespace EtherSwitch

theorem MdioBus.exists_passed (c : MdioBus.Call) : ∃ a, Exchange.Passed (I := MdioBus) ⟨c, a⟩ := by
  cases c with
  | read phy register =>
    refine ⟨.ok 0, ?_⟩
    rintro e ⟨_, ⟨⟩, ⟨⟩⟩
  | write phy register word =>
    refine ⟨.ok (), ?_⟩
    rintro e ⟨_, ⟨⟩, ⟨⟩⟩
  | delay micros =>
    refine ⟨(), ?_⟩
    rintro e ⟨_, ⟨⟩, -⟩

namespace PseudoPhy
variable {α β σ : Type}

/-- A read of a register that was answered. -/
def answered (phy register : UInt8) (word : BitVec 16) : Exchange MdioBus := ⟨.read phy register, .ok word⟩

/-- A write of a register that was taken. -/
def written (phy register : UInt8) (word : BitVec 16) : Exchange MdioBus := ⟨.write phy register word, .ok ()⟩

def paused (micros : Nat) : Exchange MdioBus := ⟨.delay micros, ()⟩

/-- The word of the address register shows no operation under way. -/
def Idle (word : BitVec 16) : Prop := word &&& 3 = 0

/-- The exchange shows an operation under way. -/
def showsBusy : Exchange MdioBus → Bool
  | ⟨.read _ register, .ok word⟩ => register == 0x11 && word &&& 3 != 0
  | _ => false

/-- The 16-bit words that a value of each width is exchanged in. -/
def dataWords : Width → Nat
  | .bits8 => 1
  | .bits16 => 1
  | .bits32 => 2
  | .bits48 => 3
  | .bits64 => 4

theorem chunks_eq_dataWords (w : Width) : chunks w = dataWords w := by cases w <;> rfl

/-- The conversation of an access that meets no refusal, and its answer. -/
def Settings.Protocol (s : Settings) : (c : Registers.Call) → List (Exchange MdioBus) →
    Registers.Answer c → Prop
  | .read a, talk, answer =>
    ∃ wait : Wait (BitVec 16), wait.Ended Idle 5 ∧
      let asked := written s.phy 0x10 (a.location.page.toBitVec ++ 1#8) ::
        written s.phy 0x11 (a.location.offset.toBitVec ++ 2#8) ::
          wait.exchanges (answered s.phy 0x11) (paused 10)
      if wait.last = none ∧ s.strict then talk = asked ∧ answer = .error (.mdioTimeout a.location)
      else
        ∃ words : List (BitVec 16), words.length = dataWords a.width ∧
          talk = asked ++
            List.zipWith (fun i => answered s.phy (0x18 + UInt8.ofNat i))
              (List.range (dataWords a.width)) words ∧
          answer = .ok (BitVec.ofNat 64 (Nat.ofDigits (2 ^ 16) (words.map BitVec.toNat) % 2 ^ a.width.bits))
  | .write a value, talk, answer =>
    ∃ wait : Wait (BitVec 16), wait.Ended Idle 5 ∧
      talk = written s.phy 0x10 (a.location.page.toBitVec ++ 1#8) ::
        (List.range (dataWords a.width)).map (fun i =>
          written s.phy (0x18 + UInt8.ofNat i)
            (BitVec.ofNat 16 (value.toNat % 2 ^ a.width.bits / 2 ^ (16 * i)))) ++
        written s.phy 0x11 (a.location.offset.toBitVec ++ 1#8) ::
          wait.exchanges (answered s.phy 0x11) (paused 10) ∧
      answer = if wait.last = none ∧ s.strict then .error (.mdioTimeout a.location) else .ok ()

/-- With a count of `n`, the transaction can have this conversation in `P` and end with this
    answer and count. -/
def Talks (P : Exchange MdioBus → Prop) (t : Transaction α) (n : Nat) (talk : List (Exchange MdioBus))
    (x : Except Error α) (m : Nat) : Prop :=
  (t.run.run n).Converses P talk (x, m)

namespace Talks
variable {P : Exchange MdioBus → Prop} {n m : Nat} {talk : List (Exchange MdioBus)}

theorem pure {a : α} {x : Except Error α} (h : Talks P (pure a) n talk x m) :
    talk = [] ∧ x = .ok a ∧ m = n := by
  obtain ⟨rfl, hend⟩ := h
  exact ⟨rfl, Prod.mk.inj hend⟩

theorem bind {t : Transaction α} {f : α → Transaction β} {x : Except Error β}
    (h : Talks P (t >>= f) n talk x m) :
    (∃ e, Talks P t n talk (.error e) m ∧ x = .error e) ∨
      ∃ a k first rest, talk = first ++ rest ∧ Talks P t n first (.ok a) k ∧ Talks P (f a) k rest x m := by
  obtain ⟨first, ⟨answer, k⟩, rest, rfl, ht, hf⟩ :=
    Program.Converses.bind (p := t.run.run n) (f := fun p => (ExceptT.bindCont f p.1).run p.2) h
  cases answer with
  | ok a => exact Or.inr ⟨a, k, first, rest, rfl, ht, hf⟩
  | error e =>
    obtain ⟨rfl, hend⟩ := hf
    obtain ⟨rfl, rfl⟩ := Prod.mk.inj hend
    rw [List.append_nil]
    exact Or.inl ⟨e, ht, rfl⟩

theorem readWord {phy register : UInt8} {x : Except Error (BitVec 16)}
    (h : Talks P (readWord phy register) n talk x m) :
    ∃ answer, talk = [⟨.read phy register, answer⟩] ∧ P ⟨.read phy register, answer⟩ ∧
      x = answer.mapError .io ∧ m = n := by
  obtain ⟨answer, htalk, hp, hend⟩ := Program.Converses.single h
  exact ⟨answer, htalk, hp, Prod.mk.inj hend⟩

theorem writeWord {phy register : UInt8} {word : BitVec 16} {x : Except Error Unit}
    (h : Talks P (writeWord phy register word) n talk x m) :
    ∃ answer, talk = [⟨.write phy register word, answer⟩] ∧ P ⟨.write phy register word, answer⟩ ∧
      x = answer.mapError .io ∧
      m = n := by
  obtain ⟨answer, htalk, hp, hend⟩ := Program.Converses.single h
  exact ⟨answer, htalk, hp, Prod.mk.inj hend⟩

theorem delay {micros : Nat} {x : Except Error Unit} (h : Talks P (delay micros) n talk x m) :
    talk = [paused micros] ∧ x = .ok () ∧ m = n := by
  obtain ⟨answer, htalk, -, hend⟩ := Program.Converses.single h
  exact ⟨htalk, Prod.mk.inj hend⟩

theorem modify {f : Nat → Nat} {x : Except Error PUnit} (h : Talks P (modify f) n talk x m) :
    talk = [] ∧ x = .ok ⟨⟩ ∧ m = f n := by
  obtain ⟨rfl, hend⟩ := h
  exact ⟨rfl, Prod.mk.inj hend⟩

theorem throw {e : Error} {x : Except Error α} (h : Talks P (throw e) n talk x m) :
    talk = [] ∧ x = .error e ∧ m = n := by
  obtain ⟨rfl, hend⟩ := h
  exact ⟨rfl, Prod.mk.inj hend⟩

end Talks

/-! ### Without refusals -/

/-- Without refusals the transaction goes through, with a conversation and a result as `D` says. -/
def Succeeds (t : Transaction α) (D : List (Exchange MdioBus) → α → Prop) : Prop :=
  ∀ n talk x m, Talks Exchange.Passed t n talk x m → ∃ a, x = .ok a ∧ D talk a

theorem Talks.bind_of {t : Transaction α} {f : α → Transaction β} {D : List (Exchange MdioBus) → α → Prop}
    (ht : Succeeds t D) {n m : Nat} {talk : List (Exchange MdioBus)} {x : Except Error β}
    (h : Talks Exchange.Passed (t >>= f) n talk x m) :
    ∃ a k first rest, talk = first ++ rest ∧ D first a ∧ Talks Exchange.Passed (f a) k rest x m := by
  rcases h.bind with ⟨e, hfail, -⟩ | ⟨a, k, first, rest, htalk, hfirst, hrest⟩
  · obtain ⟨_, ha, -⟩ := ht _ _ _ _ hfail
    cases ha
  · obtain ⟨b, hb, hD⟩ := ht _ _ _ _ hfirst
    obtain rfl := Except.ok.inj hb
    exact ⟨a, k, first, rest, htalk, hD, hrest⟩

theorem succeeds_readWord (phy register : UInt8) :
    Succeeds (readWord phy register) fun talk word => talk = [answered phy register word] := by
  intro n talk x m h
  obtain ⟨answer, rfl, hpass, rfl, -⟩ := h.readWord
  cases answer with
  | ok word => exact ⟨word, rfl, rfl⟩
  | error e => exact (hpass e ⟨_, rfl, rfl⟩).elim

theorem succeeds_writeWord (phy register : UInt8) (word : BitVec 16) :
    Succeeds (writeWord phy register word) fun talk _ => talk = [written phy register word] := by
  intro n talk x m h
  obtain ⟨answer, rfl, hpass, rfl, -⟩ := h.writeWord
  cases answer with
  | ok a => exact ⟨a, rfl, rfl⟩
  | error e => exact (hpass e ⟨_, rfl, rfl⟩).elim

theorem succeeds_delay (micros : Nat) : Succeeds (delay micros) fun talk _ => talk = [paused micros] := by
  intro n talk x m h
  obtain ⟨rfl, rfl, -⟩ := h.delay
  exact ⟨(), rfl, rfl⟩

theorem succeeds_forM {xs : List α} {f : α → Transaction PUnit} {g : α → Exchange MdioBus}
    (h : ∀ x, Succeeds (f x) fun talk _ => talk = [g x]) :
    Succeeds (xs.forM f) fun talk _ => talk = xs.map g := by
  induction xs with
  | nil =>
    intro n talk x m ht
    obtain ⟨rfl, rfl, -⟩ := Talks.pure ht
    exact ⟨(), rfl, rfl⟩
  | cons y ys ih =>
    intro n talk x m ht
    rw [List.forM_eq_forM, List.forM_cons] at ht
    obtain ⟨_, k, _, rest, rfl, rfl, hrest⟩ := ht.bind_of (h y)
    obtain ⟨a, rfl, rfl⟩ := ih _ _ _ _ hrest
    exact ⟨a, rfl, rfl⟩

theorem succeeds_mapM {xs : List α} {f : α → Transaction β} {g : α → β → Exchange MdioBus}
    (h : ∀ x, Succeeds (f x) fun talk b => talk = [g x b]) :
    Succeeds (xs.mapM f) fun talk bs => bs.length = xs.length ∧ talk = List.zipWith g xs bs := by
  induction xs with
  | nil =>
    intro n talk x m ht
    rw [List.mapM_nil] at ht
    obtain ⟨rfl, rfl, -⟩ := Talks.pure ht
    exact ⟨[], rfl, rfl, rfl⟩
  | cons y ys ih =>
    intro n talk x m ht
    rw [List.mapM_cons] at ht
    obtain ⟨b, k, _, rest, rfl, rfl, hrest⟩ := ht.bind_of (h y)
    obtain ⟨bs, k, _, _, rfl, ⟨hlen, rfl⟩, hlast⟩ := hrest.bind_of ih
    obtain ⟨rfl, rfl, -⟩ := Talks.pure hlast
    exact ⟨b :: bs, rfl, congrArg (· + 1) hlen, by simp⟩

section
variable (s : Settings)

theorem succeeds_completes (polls : Nat) :
    Succeeds (s.completes polls) fun talk complete => ∃ wait : Wait (BitVec 16), wait.Ended Idle polls ∧
      talk = wait.exchanges (answered s.phy 0x11) (paused 10) ∧ complete = wait.last.isSome := by
  induction polls with
  | zero =>
    intro n talk x m h
    obtain ⟨rfl, rfl, -⟩ := Talks.pure h
    exact ⟨false, rfl, _, Wait.ended_zero, rfl, rfl⟩
  | succ polls ih =>
    intro n talk x m h
    rw [Settings.completes] at h
    obtain ⟨word, k, _, rest, rfl, rfl, hrest⟩ := h.bind_of (succeeds_readWord _ _)
    by_cases hidle : Idle word
    · rw [if_pos (show word &&& operationMask = 0 from hidle)] at hrest
      obtain ⟨rfl, rfl, -⟩ := Talks.pure hrest
      exact ⟨true, rfl, _, Wait.ended_now hidle, rfl, rfl⟩
    · rw [if_neg (show ¬word &&& operationMask = 0 from hidle)] at hrest
      obtain ⟨_, k, _, _, rfl, rfl, hlater⟩ := hrest.bind_of (succeeds_delay _)
      obtain ⟨_, rfl, wait, hwait, rfl, rfl⟩ := ih _ _ _ _ hlater
      exact ⟨_, rfl, _, hwait.later hidle, rfl, rfl⟩

theorem succeeds_selectPage (page : UInt8) :
    Succeeds (s.selectPage page) fun talk _ => talk = [written s.phy 0x10 (page.toBitVec ++ 1#8)] :=
  succeeds_writeWord _ _ _

theorem succeeds_load (words : List (BitVec 16)) :
    Succeeds (s.load words) fun talk _ => talk = words.zipIdx.map fun p =>
      written s.phy (dataRegister p.2) p.1 :=
  succeeds_forM fun p => succeeds_writeWord s.phy (dataRegister p.2) p.1

theorem succeeds_collect (count : Nat) :
    Succeeds (s.collect count) fun talk words => words.length = count ∧
      talk = List.zipWith (fun i => answered s.phy (dataRegister i)) (List.range count) words := by
  have hread : Succeeds (s.collect count) _ := succeeds_mapM fun i => succeeds_readWord s.phy (dataRegister i)
  rwa [List.length_range] at hread

/-- A wait in vain is counted, and fails the access if the settings are strict. -/
theorem vain_talks (location : Location) {P : Exchange MdioBus → Prop} {n m : Nat}
    {talk : List (Exchange MdioBus)} {x : Except Error Unit}
    (h : Talks P (do modify (· + 1); if s.strict then throw (.mdioTimeout location)) n talk x m) :
    talk = [] ∧ x = (if s.strict then .error (.mdioTimeout location) else .ok ()) ∧ m = n + 1 := by
  rcases h.bind with ⟨e, hfail, -⟩ | ⟨_, k, first, rest, rfl, htally, hrest⟩
  · cases hfail.modify.2.1
  · obtain ⟨rfl, -, rfl⟩ := htally.modify
    rw [List.nil_append]
    split
    next hstrict =>
      rw [if_pos hstrict] at hrest
      exact hrest.throw
    next hsoft =>
      rw [if_neg hsoft] at hrest
      exact hrest.pure

/-- Without refusals an operation is issued and waited for, and only a strict wait in vain fails it. -/
theorem operate_talks (location : Location) (operation : Operation) {n m : Nat} {talk : List (Exchange MdioBus)}
    {x : Except Error Unit} (h : Talks Exchange.Passed (s.operate location operation) n talk x m) :
    ∃ wait : Wait (BitVec 16), wait.Ended Idle 5 ∧
      talk = written s.phy 0x11 (location.offset.toBitVec ++ operation.code) ::
        wait.exchanges (answered s.phy 0x11) (paused 10) ∧
      x = if wait.last = none ∧ s.strict then .error (.mdioTimeout location) else .ok () := by
  obtain ⟨_, k, _, rest, rfl, rfl, hwait⟩ := h.bind_of (succeeds_writeWord _ _ _)
  obtain ⟨_, k, _, rest, rfl, ⟨wait, hended, rfl, rfl⟩, hrest⟩ := hwait.bind_of (succeeds_completes s _)
  obtain ⟨early, _ | word⟩ := wait
  · obtain ⟨rfl, rfl, -⟩ := vain_talks s location hrest
    refine ⟨_, hended, ?_, by simp⟩
    rw [List.append_nil]
    rfl
  · obtain ⟨rfl, rfl, -⟩ := Talks.pure hrest
    refine ⟨_, hended, ?_, by simp⟩
    rw [List.append_nil]
    rfl

theorem protocol_read (a : Address) {n m : Nat} {talk : List (Exchange MdioBus)} {x : Except Error (BitVec 64)}
    (h : Talks Exchange.Passed (s.read a) n talk x m) : s.Protocol (.read a) talk x := by
  obtain ⟨_, k, _, rest, rfl, rfl, hrest⟩ := h.bind_of (succeeds_selectPage s _)
  rcases hrest.bind with ⟨e, hfail, rfl⟩ | ⟨_, k, first, rest, rfl, hwait, hcollect⟩
  · obtain ⟨wait, hended, rfl, hx⟩ := operate_talks s _ _ hfail
    refine ⟨wait, hended, ?_⟩
    split at hx
    next hvain =>
      cases hx
      rw [if_pos hvain]
      exact ⟨rfl, rfl⟩
    next => cases hx
  · obtain ⟨wait, hended, rfl, hx⟩ := operate_talks s _ _ hwait
    refine ⟨wait, hended, ?_⟩
    split at hx
    next => cases hx
    next hgo =>
      rw [if_neg hgo]
      rw [chunks_eq_dataWords] at hcollect
      obtain ⟨words, k, _, rest, rfl, ⟨hlen, rfl⟩, hlast⟩ := hcollect.bind_of (succeeds_collect s _)
      obtain ⟨rfl, rfl, -⟩ := hlast.pure
      refine ⟨words, hlen, ?_, ?_⟩
      · rw [List.append_nil]
        rfl
      · rw [Word.ofLimbs_eq_ofDigits, Width.truncate_ofNat]

theorem protocol_write (a : Address) (value : BitVec 64) {n m : Nat} {talk : List (Exchange MdioBus)}
    {x : Except Error Unit}
    (h : Talks Exchange.Passed (s.write a value) n talk x m) : s.Protocol (.write a value) talk x := by
  obtain ⟨_, k, _, rest, rfl, rfl, hrest⟩ := h.bind_of (succeeds_selectPage s _)
  obtain ⟨_, k, _, rest, rfl, rfl, hwait⟩ := hrest.bind_of (succeeds_load s _)
  obtain ⟨wait, hended, rfl, rfl⟩ := operate_talks s _ _ hwait
  refine ⟨wait, hended, ?_, rfl⟩
  rw [Word.zipIdx_limbs_truncate, List.map_map, chunks_eq_dataWords]
  rfl

end

/-! ### The count, refusals or not -/

/-- However it goes, the transaction sees no busy answer and keeps the count. -/
def Quiet (t : Transaction α) : Prop :=
  ∀ n talk x m, Talks (fun _ => True) t n talk x m → m = n ∧ talk.countP showsBusy = 0

/-- However it goes, the transaction counts one more if it sees five busy answers. -/
def Counted (t : Transaction α) : Prop :=
  ∀ n talk x m, Talks (fun _ => True) t n talk x m → m = if talk.countP showsBusy = 5 then n + 1 else n

theorem quiet_pure (a : α) : Quiet (pure a) := by
  intro n talk x m h
  obtain ⟨rfl, -, rfl⟩ := h.pure
  exact ⟨rfl, rfl⟩

theorem quiet_writeWord (phy register : UInt8) (word : BitVec 16) : Quiet (writeWord phy register word) := by
  intro n talk x m h
  obtain ⟨answer, rfl, -, -, rfl⟩ := h.writeWord
  exact ⟨rfl, rfl⟩

theorem showsBusy_eq_false {phy register : UInt8} (hreg : register ≠ 0x11)
    (answer : Except IoError (BitVec 16)) :
    showsBusy ⟨.read phy register, answer⟩ = false := by
  cases answer with
  | ok word => simp [showsBusy, hreg]
  | error e => rfl

theorem showsBusy_iff {phy : UInt8} {word : BitVec 16} :
    showsBusy ⟨.read phy addressRegister, .ok word⟩ = true ↔ ¬word &&& operationMask = 0 := by
  simp [showsBusy, addressRegister, operationMask]

theorem quiet_readWord (phy : UInt8) {register : UInt8} (hreg : register ≠ 0x11) :
    Quiet (readWord phy register) := by
  intro n talk x m h
  obtain ⟨answer, rfl, -, -, rfl⟩ := h.readWord
  exact ⟨rfl, by rw [List.countP_singleton, showsBusy_eq_false hreg]; rfl⟩

theorem Quiet.bind {t : Transaction α} {f : α → Transaction β} (ht : Quiet t) (hf : ∀ a, Quiet (f a)) :
    Quiet (t >>= f) := by
  intro n talk x m h
  rcases h.bind with ⟨e, hfail, -⟩ | ⟨a, k, first, rest, rfl, hfirst, hrest⟩
  · exact ht _ _ _ _ hfail
  · obtain ⟨rfl, hcount⟩ := ht _ _ _ _ hfirst
    rw [List.countP_append, hcount, Nat.zero_add]
    exact hf a _ _ _ _ hrest

theorem Quiet.bind_counted {t : Transaction α} {f : α → Transaction β} (ht : Quiet t)
    (hf : ∀ a, Counted (f a)) :
    Counted (t >>= f) := by
  intro n talk x m h
  rcases h.bind with ⟨e, hfail, -⟩ | ⟨a, k, first, rest, rfl, hfirst, hrest⟩
  · obtain ⟨rfl, hcount⟩ := ht _ _ _ _ hfail
    rw [hcount, if_neg (by decide)]
  · obtain ⟨rfl, hcount⟩ := ht _ _ _ _ hfirst
    rw [List.countP_append, hcount, Nat.zero_add]
    exact hf a _ _ _ _ hrest

theorem Counted.bind_quiet {t : Transaction α} {f : α → Transaction β} (ht : Counted t)
    (hf : ∀ a, Quiet (f a)) :
    Counted (t >>= f) := by
  intro n talk x m h
  rcases h.bind with ⟨e, hfail, -⟩ | ⟨a, k, first, rest, rfl, hfirst, hrest⟩
  · exact ht _ _ _ _ hfail
  · obtain ⟨rfl, hcount⟩ := hf a _ _ _ _ hrest
    rw [List.countP_append, hcount]
    exact ht _ _ _ _ hfirst

theorem Quiet.forM {xs : List α} {f : α → Transaction PUnit} (h : ∀ x ∈ xs, Quiet (f x)) :
    Quiet (xs.forM f) := by
  induction xs with
  | nil => exact quiet_pure _
  | cons x xs ih =>
    rw [List.forM_eq_forM, List.forM_cons]
    exact (h x List.mem_cons_self).bind fun _ => ih fun y hy => h y (List.mem_cons_of_mem x hy)

theorem Quiet.mapM {xs : List α} {f : α → Transaction β} (h : ∀ x ∈ xs, Quiet (f x)) : Quiet (xs.mapM f) := by
  induction xs with
  | nil =>
    rw [List.mapM_nil]
    exact quiet_pure _
  | cons x xs ih =>
    rw [List.mapM_cons]
    exact (h x List.mem_cons_self).bind fun y =>
      (ih fun z hz => h z (List.mem_cons_of_mem x hz)).bind fun _ => quiet_pure _

section
variable (s : Settings)

/-- A wait sees a busy answer at each poll if and only if it is in vain. -/
theorem completes_busy {polls n m : Nat} {talk : List (Exchange MdioBus)} {x : Except Error Bool}
    (h : Talks (fun _ => True) (s.completes polls) n talk x m) :
    m = n ∧ talk.countP showsBusy ≤ polls ∧ (talk.countP showsBusy = polls ↔ x = .ok false) := by
  induction polls generalizing n talk x m with
  | zero =>
    obtain ⟨rfl, rfl, rfl⟩ := h.pure
    exact ⟨rfl, Nat.le_refl _, by simp⟩
  | succ polls ih =>
    rw [Settings.completes] at h
    rcases h.bind with ⟨e, hfail, rfl⟩ | ⟨word, k, first, rest, rfl, hread, hrest⟩
    · obtain ⟨_ | word, rfl, -, hx, rfl⟩ := hfail.readWord
      · exact ⟨rfl, Nat.zero_le _, by simp [showsBusy]⟩
      · cases hx
    · obtain ⟨_ | word, rfl, -, hx, rfl⟩ := hread.readWord
      · cases hx
      · cases hx
        rw [List.countP_append, List.countP_singleton]
        split at hrest
        next hidle =>
          obtain ⟨rfl, rfl, rfl⟩ := hrest.pure
          rw [if_neg fun hbusy => showsBusy_iff.mp hbusy hidle]
          exact ⟨rfl, Nat.zero_le _, by simp⟩
        next hbusy =>
          rw [if_pos (showsBusy_iff.mpr hbusy)]
          rcases hrest.bind with ⟨e, hfail, -⟩ | ⟨_, k, first, later, rfl, hdelay, hlater⟩
          · cases hfail.delay.2.1
          · obtain ⟨rfl, -, rfl⟩ := hdelay.delay
            obtain ⟨rfl, hle, hiff⟩ := ih hlater
            have hpaused : List.countP showsBusy ([paused pollDelay] ++ later) = later.countP showsBusy := rfl
            rw [hpaused, ← hiff]
            exact ⟨rfl, by omega, by omega⟩

theorem counted_operate (location : Location) (operation : Operation) :
    Counted (s.operate location operation) := by
  refine (quiet_writeWord _ _ _).bind_counted fun _ => ?_
  intro n talk x m h
  rcases h.bind with ⟨e, hfail, rfl⟩ | ⟨complete, k, first, rest, rfl, hwait, hrest⟩
  · obtain ⟨rfl, -, hiff⟩ := completes_busy s hfail
    exact (if_neg fun hfive => nomatch hiff.mp hfive).symm
  · obtain ⟨rfl, -, hiff⟩ := completes_busy s hwait
    cases complete with
    | true =>
      obtain ⟨rfl, -, rfl⟩ := Talks.pure hrest
      rw [List.append_nil]
      exact (if_neg fun hfive => nomatch hiff.mp hfive).symm
    | false =>
      obtain ⟨rfl, -, rfl⟩ := vain_talks s location hrest
      rw [List.append_nil]
      exact (if_pos (hiff.mpr rfl)).symm

theorem counted_read (a : Address) : Counted (s.read a) :=
  (quiet_writeWord _ _ _).bind_counted fun _ => (counted_operate s _ _).bind_quiet fun _ =>
    (Quiet.mapM fun i hi => quiet_readWord _ (dataRegister_ne_address
      ⟨i, Nat.lt_of_lt_of_le (List.mem_range.mp hi) (chunks_le _)⟩)).bind fun _ => quiet_pure _

theorem counted_write (a : Address) (value : BitVec 64) : Counted (s.write a value) :=
  (quiet_writeWord _ _ _).bind_counted fun _ =>
    (Quiet.forM fun _ _ => quiet_writeWord _ _ _).bind_counted fun _ =>
    counted_operate s _ _

theorem counted_layer {c : Registers.Call} {n : Nat} {talk : List (Exchange MdioBus)}
    {v : Registers.Answer c × Nat} (h : ((s.layer c).run n).Converses (fun _ => True) talk v) :
    v.2 = if talk.countP showsBusy = 5 then n + 1 else n := by
  cases c with
  | read a => exact counted_read s a n talk v.1 v.2 h
  | write a value => exact counted_write s a value n talk v.1 v.2 h

theorem protocol_layer {c : Registers.Call} {n : Nat} {talk : List (Exchange MdioBus)}
    {v : Registers.Answer c × Nat}
    (h : ((s.layer c).run n).Converses Exchange.Passed talk v) : s.Protocol c talk v.1 := by
  cases c with
  | read a => exact protocol_read s a (m := v.2) h
  | write a value => exact protocol_write s a value (m := v.2) h

end

/-- Whatever the bus answers, an access has a conversation as the protocol says and its answer, or one cut
    off at the first refusal, which is its answer. It counts one more if it saw five busy answers. -/
theorem mdio_keeps_protocol (s : Settings) (d : Device MdioBus σ) (c : Registers.Call) (n : Nat) (bus : σ) :
    let talk := ((s.layer c).run n).exchanges d bus
    let served := s.layer.device d c (n, bus)
    (s.Protocol c talk served.1 ∨
      ∃ e whole answer, s.Protocol c whole answer ∧ CutOff whole talk e ∧
        Exchange.Refused (I := Registers) ⟨c, served.1⟩ (.io e)) ∧
    served.2.1 = if talk.countP showsBusy = 5 then n + 1 else n := by
  have hrun := ((s.layer c).run n).converses_run d bus
  refine ⟨?_, counted_layer s hrun⟩
  rcases (prompt_layer s c n).whole_or_cut MdioBus.exists_passed hrun with hwhole |
    ⟨e, whole, v, hwhole, hcut, hrefused⟩
  · exact Or.inl (protocol_layer s hwhole)
  · exact Or.inr ⟨e, whole, v.1, protocol_layer s hwhole, hcut, hrefused⟩

end PseudoPhy

end EtherSwitch
