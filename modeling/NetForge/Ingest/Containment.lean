import NetForge.Ingest.Readable

/-! # Error containment

`get`, `getnext` and `walk` return or raise `SnmpError`, whatever the socket
delivers, exactly as long as each step of their exchanges meets a condition on
the session it starts from and on the datagram it takes as the reply. A step is
the discovery or one request.
-/

namespace NetForge.Ingest.Snmp

open Python Asn1 EngineM Calculus

/-- Returns, or raises `SnmpError`, when started in `s`. -/
def ContainedAt {α : Type} (x : EngineM α) (s : Session) : Prop := RaisesAt IsSnmpError x s

/-! ## The operations of a session -/

theorem state_run (s : Session) : state s = .ok s.state s := rfl

theorem get_run (s : Session) : (MonadState.get : EngineM Session) s = .ok s s := rfl

theorem modifyState_run (f : EngineState → EngineState) (s : Session) :
    modifyState f s = .ok () { s with state := f s.state } := rfl

theorem call_run (c : SocketCall) (s : Session) :
    call c s = .ok () { s with calls := s.calls ++ [c] } := rfl

theorem monotonic_run (net : Network) (s : Session) :
    monotonic net s = .ok (net.clock s.reads) { s with reads := s.reads + 1 } := rfl

section

variable {E : PyError → Prop} {I : Session → Prop} {s : Session}

@[simp] theorem raisesAt_of {α : Type} {x : Except PyError α} :
    RaisesAt E (of x) s ↔ Raises E x := by
  cases x with
  | ok a => exact ⟨fun _ => raises_ok a, fun _ => raisesAt_of_ok rfl⟩
  | error e => exact (raisesAt_of_error rfl).trans (raises_error e).symm

theorem raisesAt_raiseIf {c : Prop} [Decidable c] {error : PyError} :
    RaisesAt E (raiseIf c error) s ↔ (c → E error) := by
  unfold raiseIf
  by_cases h : c <;> simp [h]

theorem raiseIf_run {c : Prop} [Decidable c] (hc : ¬ c) (error : PyError) (s : Session) :
    raiseIf c error s = .ok () s := EngineM.raiseIf_ok.mpr ⟨hc, rfl⟩

theorem raisesAt_onlyIf {c : Prop} [Decidable c] {x : EngineM Unit} :
    RaisesAt E (onlyIf c x) s ↔ (c → RaisesAt E x s) := by
  unfold onlyIf
  by_cases h : c <;> simp [h]

theorem raisesAt_thenClose {α : Type} {x : EngineM α} :
    RaisesAt E (thenClose x) s ↔ RaisesAt E x s := by
  unfold RaisesAt Ends thenClose
  cases x s with
  | ok a s' => rfl
  | error e s' => rfl

theorem keeps_of {α : Type} (x : Except PyError α) : Keeps I (of x) := by
  intro s hs
  cases x with
  | ok a => exact hs
  | error e => exact hs

theorem keeps_state : Keeps I state := fun _ hs => hs

theorem keeps_raiseIf {c : Prop} [Decidable c] {error : PyError} : Keeps I (raiseIf c error) := by
  unfold raiseIf
  by_cases h : c
  · simpa [h] using keeps_throw error
  · simpa [h] using keeps_pure ()

theorem keeps_onlyIf {c : Prop} [Decidable c] {x : EngineM Unit} (h : c → Keeps I x) :
    Keeps I (onlyIf c x) := by
  unfold onlyIf
  by_cases hc : c
  · simpa [hc] using h hc
  · simpa [hc] using keeps_pure ()

/-! ### What is kept of the engine's state -/

variable {J : EngineState → Prop}

theorem keeps_call (c : SocketCall) : Keeps (fun s => J s.state) (call c) := fun _ hs => hs

theorem keeps_monotonic (net : Network) : Keeps (fun s => J s.state) (monotonic net) :=
  fun _ hs => hs

theorem keeps_urandom (net : Network) : Keeps (fun s => J s.state) (urandom net) := fun _ hs => hs

theorem keeps_modifyState {f : EngineState → EngineState} (h : ∀ st, J st → J (f st)) :
    Keeps (fun s => J s.state) (modifyState f) := fun s hs => h s.state hs

theorem keeps_thenClose {α : Type} {x : EngineM α} (h : Keeps (fun s => J s.state) x) :
    Keeps (fun s => J s.state) (thenClose x) := by
  intro s hs
  have hx := h s hs
  unfold Ends thenClose
  unfold Ends at hx
  cases hrun : x s with
  | ok a s' =>
      rw [hrun] at hx
      exact hx
  | error e s' =>
      rw [hrun] at hx
      exact hx

end

section

variable (P : Primitives) (net : Network) (e : SnmpV3Engine)

/-! ## Sending and receiving -/

def TimeoutFits (seconds : Rat) : Prop := 0 ≤ seconds ∧ seconds * 10 ^ 9 ≤ 2 ^ 63 - 1

theorem settimeout_run {seconds : Rat} (h : TimeoutFits seconds) (s : Session) :
    settimeout seconds s = .ok () { s with calls := s.calls ++ [.settimeout seconds] } := by
  obtain ⟨hpos, hlong⟩ := h
  have hrange : ¬ (seconds * 10 ^ 9 < -2 ^ 63 ∨ 2 ^ 63 - 1 < seconds * 10 ^ 9) := by
    rintro (hlow | hhigh)
    · linarith
    · linarith
  unfold settimeout raiseIf
  rw [if_neg hrange, if_neg (not_lt.mpr hpos)]
  rfl

theorem settimeout_escapes {seconds : Rat} (h : ¬ TimeoutFits seconds) (s : Session) :
    ¬ ContainedAt (settimeout seconds) s := by
  intro hc
  unfold settimeout at hc
  rw [ContainedAt, raisesAt_bind_ok (call_run _ _)] at hc
  obtain ⟨hrange, hrest⟩ := raisesAt_bind.mp hc
  have hin := raisesAt_raiseIf.mp hrange
  have hneg := raisesAt_raiseIf.mp (hrest () _ (EngineM.raiseIf_ok.mpr ⟨hin, rfl⟩))
  refine h ⟨not_lt.mp hneg, ?_⟩
  exact not_lt.mp fun hhigh => hin (.inr hhigh)

/-- What is left at any later reading of the clock is no more than `settimeout` takes. -/
def LeftFits (deadline : Rat) (reads : Nat) : Prop :=
  ∀ n, reads ≤ n → (deadline - net.clock n) * 10 ^ 9 ≤ 2 ^ 63 - 1

variable {net} in
theorem LeftFits.later {deadline : Rat} {reads later : Nat} (h : LeftFits net deadline reads)
    (hle : reads ≤ later) : LeftFits net deadline later := fun n hn => h n (hle.trans hn)

variable {net} in
theorem LeftFits.fits {deadline : Rat} {reads : Nat} (h : LeftFits net deadline reads)
    (hleft : ¬ deadline - net.clock reads ≤ 0) : TimeoutFits (deadline - net.clock reads) :=
  ⟨(not_le.mp hleft).le, h reads le_rfl⟩

theorem raisesAt_receive (expectedMsgId : Int) (deadline : Rat) (deliveries : List Delivery)
    (s : Session) (hleft : LeftFits net deadline s.reads) :
    RaisesAt (fun _ => False) (receive net expectedMsgId deadline deliveries) s := by
  have hawait : ∀ next s, LeftFits net deadline s.reads →
      (∀ s', s'.reads = s.reads + 1 → RaisesAt (fun _ => False) next s') →
      RaisesAt (fun _ => False) (await net deadline next) s := by
    intro next s hleft hnext
    unfold await
    rw [raisesAt_bind_ok (monotonic_run net s)]
    by_cases hnone : deadline - net.clock s.reads ≤ 0
    · simp only [hnone, if_true]
      exact raisesAt_pure _ _
    · simp only [hnone, if_false]
      rw [raisesAt_bind_ok (settimeout_run (hleft.fits hnone) _),
        raisesAt_bind_ok (call_run _ _)]
      exact hnext _ rfl
  induction deliveries generalizing s with
  | nil => exact hawait _ s hleft fun s' _ => raisesAt_pure _ _
  | cons delivery rest ih =>
      cases delivery with
      | error text => exact hawait _ s hleft fun s' _ => raisesAt_pure _ _
      | datagram data =>
          refine hawait _ s hleft fun s' hs' => ?_
          have hrest := ih s' (hleft.later (by omega))
          cases hp : peekMsgId (data.take MAX_MESSAGE_SIZE) with
          | ok id =>
              by_cases hid : id = expectedMsgId
              · simp only [hid, if_true]
                exact raisesAt_pure _ _
              · simp only [hid, if_false]
                exact hrest
          | error err =>
              have hpeek := (raises_peekMsgId _ err hp).isPeekError
              simp only [hpeek, if_true]
              exact hrest

theorem keeps_settimeout {I : Session → Prop}
    (hcall : ∀ s c, c.message? = none → I s → I { s with calls := s.calls ++ [c] })
    (seconds : Rat) : Keeps I (settimeout seconds) :=
  keeps_bind (fun s hs => hcall s _ rfl hs) fun _ =>
    keeps_bind keeps_raiseIf fun _ => keeps_raiseIf

theorem keeps_receive {I : Session → Prop} (hread : ∀ s, I s → I { s with reads := s.reads + 1 })
    (hcall : ∀ s c, c.message? = none → I s → I { s with calls := s.calls ++ [c] })
    (expectedMsgId : Int) (deadline : Rat) (deliveries : List Delivery) :
    Keeps I (receive net expectedMsgId deadline deliveries) := by
  have hawait : ∀ next, Keeps I next → Keeps I (await net deadline next) := by
    intro next hnext
    unfold await
    refine keeps_bind (fun s hs => hread s hs) fun now => ?_
    by_cases hleft : deadline - now ≤ 0
    · simpa only [hleft, if_true] using keeps_pure _
    · simp only [hleft, if_false]
      exact keeps_bind (keeps_settimeout hcall _) fun _ =>
        keeps_bind (fun s hs => hcall s _ rfl hs) fun _ => hnext
  induction deliveries with
  | nil => exact hawait _ (keeps_pure _)
  | cons delivery rest ih =>
      cases delivery with
      | error text => exact hawait _ (keeps_pure _)
      | datagram data =>
          refine hawait _ ?_
          cases peekMsgId (data.take MAX_MESSAGE_SIZE) with
          | ok id =>
              by_cases hid : id = expectedMsgId
              · simpa only [hid, if_true] using keeps_pure _
              · simpa only [hid, if_false] using ih
          | error err =>
              cases hpeek : isPeekError err with
              | true => simpa only [hpeek, if_true] using ih
              | false => simpa only [hpeek, Bool.false_eq_true, if_false] using keeps_throw err

/-- What an attempt needs of the engine's arguments, with so many calls of `sendto` before
it: a port that is none matters only where the host can be looked up. -/
structure Attemptable (before : Nat) : Prop where
  timeout : TimeoutFits e.timeout
  host : hostEncodes net e = true
  converts : -2 ^ 31 ≤ e.port ∧ e.port < 2 ^ 31
  port : net.lookup before = none → 0 ≤ e.port ∧ e.port ≤ 0xffff

variable {net e}

/-- What comes of sending a message that the socket module does not refuse: the host is not
found, or the network takes the datagram. -/
def Network.answer (net : Network) (sent : List Bytes) (message : Bytes) :
    Except String (List Delivery) :=
  match net.lookup sent.length with
  | some text => .error text
  | none => net.deliver (sent ++ [message])

theorem Attemptable.sendto_run {s : Session} (h : Attemptable net e s.sent.length)
    (message : Bytes) :
    sendto net e message s = .ok (net.answer s.sent message)
      { s with calls := s.calls ++ [.sendto message] } := by
  have hsent : Session.sent { s with calls := s.calls ++ [.sendto message] } =
      s.sent ++ [message] := List.filterMap_append
  have hhost : ¬ hostEncodes net e = false := by simp [h.host]
  have hconverts : ¬ (e.port < -2 ^ 31 ∨ 2 ^ 31 ≤ e.port) := by
    have hrange := h.converts
    omega
  unfold sendto
  rw [bind_run_ok (get_run s), bind_run_ok (call_run _ _), bind_run_ok (raiseIf_run hhost _ _),
    bind_run_ok (raiseIf_run hconverts _ _)]
  unfold Network.answer
  cases hlookup : net.lookup s.sent.length with
  | some text => rfl
  | none =>
      have hport : ¬ (e.port < 0 ∨ 0xffff < e.port) := by
        have hvalid := h.port hlookup
        omega
      simp only
      rw [bind_run_ok (raiseIf_run hport _ _), bind_run_ok (get_run _), hsent]
      rfl

/-- The clock does not go back, so no more is left than the whole timeout. -/
theorem Attemptable.leftFits {before : Nat} (h : Attemptable net e before)
    (hclock : Monotone net.clock) (reads : Nat) :
    LeftFits net (net.clock reads + e.timeout) reads := by
  intro n hn
  have hlater : net.clock reads ≤ net.clock n := hclock hn
  have hlong := h.timeout.2
  linarith

theorem sendto_escapes {s : Session} (h : ¬ Attemptable net e s.sent.length)
    (htimeout : TimeoutFits e.timeout) (message : Bytes) :
    ¬ ContainedAt (sendto net e message) s := by
  intro hc
  unfold sendto at hc
  rw [ContainedAt, raisesAt_bind_ok (get_run s), raisesAt_bind_ok (call_run _ _)] at hc
  obtain ⟨hhost, hc⟩ := raisesAt_bind.mp hc
  have hencodes := raisesAt_raiseIf.mp hhost
  obtain ⟨hconverts, hc⟩ := raisesAt_bind.mp (hc () _ (raiseIf_run hencodes _ _))
  have hrange : ¬ (e.port < -2 ^ 31 ∨ 2 ^ 31 ≤ e.port) := raisesAt_raiseIf.mp hconverts
  have hc := hc () _ (raiseIf_run hrange _ _)
  apply h
  refine ⟨htimeout, Bool.eq_true_of_not_eq_false hencodes, by omega, fun hlookup => ?_⟩
  simp only [hlookup] at hc
  have hport : ¬ (e.port < 0 ∨ 0xffff < e.port) := raisesAt_raiseIf.mp (raisesAt_bind.mp hc).1
  omega

variable (net e)

theorem sent_settimeout (seconds : Rat) (s : Session) :
    Session.sent { s with calls := s.calls ++ [.settimeout seconds] } = s.sent := by
  unfold Session.sent
  rw [List.filterMap_append]
  exact List.append_nil _

theorem raisesAt_attempt (hclock : Monotone net.clock) (message : Bytes) (expectedMsgId : Int)
    {s : Session} (h : Attemptable net e s.sent.length) :
    RaisesAt (fun _ => False) (attempt net e message expectedMsgId) s := by
  have hattempt : Attemptable net e
      (Session.sent { s with calls := s.calls ++ [.settimeout e.timeout] }).length := by
    rwa [sent_settimeout]
  unfold attempt
  rw [raisesAt_bind_ok (settimeout_run h.timeout s),
    raisesAt_bind_ok (hattempt.sendto_run message)]
  cases net.answer _ message with
  | error text => exact raisesAt_pure _ _
  | ok deliveries =>
      simp only
      rw [raisesAt_bind_ok (monotonic_run net _)]
      apply raisesAt_receive net expectedMsgId
      exact (h.leftFits hclock s.reads).later (Nat.le_succ _)

theorem sent_attempt {message : Bytes} {expectedMsgId : Int} {s s' : Session}
    {result : Except String Bytes}
    (h : attempt net e message expectedMsgId s = .ok result s') :
    s'.sent = s.sent ++ [message] := by
  have hcall : ∀ (s : Session) (c : SocketCall), c.message? = none →
      Session.sent { s with calls := s.calls ++ [c] } = s.sent := by
    intro s c hc
    unfold Session.sent
    rw [List.filterMap_append, List.filterMap_cons_none hc]
    exact List.append_nil _
  unfold attempt at h
  obtain ⟨_, s₁, hset, h⟩ := EngineM.bind_ok.mp h
  have hs₁ : s₁.sent = s.sent := by
    unfold settimeout at hset
    obtain ⟨_, s₂, hrecord, hset⟩ := EngineM.bind_ok.mp hset
    obtain ⟨_, s₃, hrange, hset⟩ := EngineM.bind_ok.mp hset
    rw [call_run] at hrecord
    cases hrecord
    obtain ⟨-, rfl⟩ := EngineM.raiseIf_ok.mp hrange
    obtain ⟨-, rfl⟩ := EngineM.raiseIf_ok.mp hset
    exact hcall s _ rfl
  obtain ⟨sent, s₂, hsend, h⟩ := EngineM.bind_ok.mp h
  have hs₂ : s₂.sent = s.sent ++ [message] := by
    unfold sendto at hsend
    rw [bind_run_ok (get_run s₁), bind_run_ok (call_run _ _)] at hsend
    obtain ⟨_, s₃, hhost, hsend⟩ := EngineM.bind_ok.mp hsend
    obtain ⟨-, rfl⟩ := EngineM.raiseIf_ok.mp hhost
    obtain ⟨_, s₃, hconverts, hsend⟩ := EngineM.bind_ok.mp hsend
    obtain ⟨-, rfl⟩ := EngineM.raiseIf_ok.mp hconverts
    have hlast : Session.sent { s₁ with calls := s₁.calls ++ [.sendto message] } =
        s.sent ++ [message] := by
      rw [← hs₁]
      exact List.filterMap_append
    cases hlookup : net.lookup s₁.sent.length with
    | some text =>
        simp only [hlookup] at hsend
        obtain ⟨-, rfl⟩ := EngineM.pure_ok.mp hsend
        exact hlast
    | none =>
        simp only [hlookup] at hsend
        obtain ⟨_, s₃, hport, hsend⟩ := EngineM.bind_ok.mp hsend
        obtain ⟨-, rfl⟩ := EngineM.raiseIf_ok.mp hport
        rw [bind_run_ok (get_run _)] at hsend
        obtain ⟨-, rfl⟩ := EngineM.pure_ok.mp hsend
        exact hlast
  cases sent with
  | error text =>
      obtain ⟨-, rfl⟩ := EngineM.pure_ok.mp h
      exact hs₂
  | ok deliveries =>
      simp only at h
      rw [bind_run_ok (monotonic_run net _)] at h
      have hkeeps : Keeps (fun t => t.sent = s.sent ++ [message])
          (receive net expectedMsgId (net.clock s₂.reads + e.timeout) deliveries) :=
        keeps_receive net (fun _ ht => ht) (fun t c hc ht => (hcall t c hc).trans ht) _ _ _
      have hread : Session.sent { s₂ with reads := s₂.reads + 1 } = s.sent ++ [message] := hs₂
      exact hkeeps.of_ok hread h

theorem attempt_escapes {s : Session} (h : ¬ Attemptable net e s.sent.length) (message : Bytes)
    (expectedMsgId : Int) : ¬ ContainedAt (attempt net e message expectedMsgId) s := by
  intro hc
  unfold attempt at hc
  by_cases htimeout : TimeoutFits e.timeout
  · rw [ContainedAt, raisesAt_bind_ok (settimeout_run htimeout s)] at hc
    refine sendto_escapes ?_ htimeout message (raisesAt_bind.mp hc).1
    rwa [sent_settimeout]
  · exact settimeout_escapes htimeout s (raisesAt_bind.mp hc).1

/-- The attempts from here on are all possible; without one the port gets into the message. -/
structure Sendable (left before : Nat) : Prop where
  attempts : ∀ i < left, Attemptable net e (before + i)
  printable : left = 0 → e.port.natAbs < 10 ^ maxStrDigits

variable {net e}

theorem sendable_succ_iff {left before : Nat} :
    Sendable net e (left + 1) before ↔
      Attemptable net e before ∧ Sendable net e left (before + 1) := by
  constructor
  · intro h
    have hfirst : Attemptable net e before := by simpa using h.attempts 0 (Nat.succ_pos left)
    refine ⟨hfirst, ⟨?_, ?_⟩⟩
    · intro i hi
      have hnext := h.attempts (i + 1) (by omega)
      rwa [Nat.add_comm i 1, ← Nat.add_assoc] at hnext
    · intro _
      have hconverts := hfirst.converts
      have hpow : (10 : Nat) ^ 10 ≤ 10 ^ maxStrDigits :=
        Nat.pow_le_pow_right (by decide) (by decide)
      have hsmall : e.port.natAbs < 10 ^ 10 := by omega
      exact hsmall.trans_le hpow
  · rintro ⟨hfirst, hrest⟩
    refine ⟨fun i hi => ?_, fun hzero => absurd hzero (Nat.succ_ne_zero left)⟩
    cases i with
    | zero => exact hfirst
    | succ i =>
        have hnext := hrest.attempts i (by omega)
        rwa [Nat.add_assoc, Nat.add_comm 1 i] at hnext

/-- With a port that is one, the attempts are possible if one of them is. -/
theorem Attemptable.sendable {before : Nat} (h : Attemptable net e before)
    (hport : 0 ≤ e.port ∧ e.port ≤ 0xffff) (left before' : Nat) : Sendable net e left before' where
  attempts := fun _ _ => ⟨h.timeout, h.host, h.converts, fun _ => hport⟩
  printable := by
    intro _
    have hpow : (10 : Nat) ^ 10 ≤ 10 ^ maxStrDigits :=
      Nat.pow_le_pow_right (by decide) (by decide)
    have hsmall : e.port.natAbs < 10 ^ 10 := by omega
    exact hsmall.trans_le hpow

/-- An attempt whose host is not found ends with the text of that error. -/
theorem attempt_of_lookup {s : Session} (h : Attemptable net e s.sent.length) (message : Bytes)
    (expectedMsgId : Int) {text : String} (hlookup : net.lookup s.sent.length = some text) :
    ∃ s', attempt net e message expectedMsgId s = .ok (.error text) s' := by
  have hattempt : Attemptable net e
      (Session.sent { s with calls := s.calls ++ [.settimeout e.timeout] }).length := by
    rwa [sent_settimeout]
  unfold attempt
  have hanswer : net.answer s.sent message = .error text := by
    unfold Network.answer
    rw [hlookup]
  rw [bind_run_ok (settimeout_run h.timeout s), bind_run_ok (hattempt.sendto_run message),
    sent_settimeout, hanswer]
  exact ⟨_, rfl⟩

theorem thenClose_ok {α : Type} {x : EngineM α} {s s' : Session} {a : α} (h : x s = .ok a s') :
    thenClose x s = .ok a { s' with calls := s'.calls ++ [.closed] } := by
  unfold thenClose
  rw [h]

theorem sent_closed (s : Session) :
    Session.sent { s with calls := s.calls ++ [.closed] } = s.sent := by
  unfold Session.sent
  rw [List.filterMap_append]
  exact List.append_nil _

theorem sent_thenClose {α : Type} {x : EngineM α} {s s' : Session} {a : α}
    (h : thenClose x s = .ok a s') : ∃ s₁, x s = .ok a s₁ ∧ s'.sent = s₁.sent := by
  unfold thenClose at h
  cases hx : x s with
  | error err s₁ =>
      rw [hx] at h
      cases h
  | ok b s₁ =>
      rw [hx] at h
      cases h
      exact ⟨s₁, rfl, sent_closed s₁⟩

theorem attempts_contained_iff (hclock : Monotone net.clock) {message : Bytes}
    {expectedMsgId : Int} {left : Nat} {last : String} {s : Session} :
    ContainedAt (attempts net e message expectedMsgId left last) s ↔
      Sendable net e left s.sent.length := by
  induction left generalizing last s with
  | zero =>
      unfold attempts
      rw [ContainedAt, raisesAt_bind, raisesAt_of]
      have hport := (contained_iff_ok (raises_str e.port)).trans str_isOk_iff
      constructor
      · rintro ⟨hprint, -⟩
        exact ⟨fun i hi => absurd hi (Nat.not_lt_zero i), fun _ => hport.mp hprint⟩
      · intro h
        exact ⟨hport.mpr (h.printable rfl), fun _ _ _ => (raisesAt_throw _ _).mpr trivial⟩
  | succ left ih =>
      have hopened : Session.sent { s with calls := s.calls ++ [.opened] } = s.sent := by
        unfold Session.sent
        rw [List.filterMap_append]
        exact List.append_nil _
      unfold attempts
      rw [ContainedAt, raisesAt_bind_ok (call_run _ _), raisesAt_bind, raisesAt_thenClose,
        sendable_succ_iff]
      constructor
      · rintro ⟨hattempt, hrest⟩
        have hfirst : Attemptable net e s.sent.length := by
          by_contra hnot
          rw [← hopened] at hnot
          exact attempt_escapes net e hnot message expectedMsgId hattempt
        refine ⟨hfirst, ?_⟩
        cases hlookup : net.lookup s.sent.length with
        | none => exact hfirst.sendable (hfirst.port hlookup) left _
        | some text =>
            have hattempted := hfirst
            rw [← hopened] at hattempted
            obtain ⟨s', hrun⟩ := attempt_of_lookup hattempted message expectedMsgId
              (by rw [hopened]; exact hlookup)
            have hnext := ih.mp (hrest (.error text) _ (thenClose_ok hrun))
            rwa [sent_closed, sent_attempt net e hrun, hopened, List.length_append] at hnext
      · rintro ⟨hfirst, hrest⟩
        refine ⟨?_, ?_⟩
        · rw [← hopened] at hfirst
          exact (raisesAt_attempt net e hclock message expectedMsgId hfirst).mono
            fun _ h => h.elim
        · intro result s' hrun
          cases result with
          | ok data => exact raisesAt_pure _ _
          | error last =>
              obtain ⟨s₁, hattempt, hclosed⟩ := sent_thenClose hrun
              apply ih.mpr
              rwa [hclosed, sent_attempt net e hattempt, hopened, List.length_append]

variable (net e)

/-- No attempt of a call of `_send_recv` is refused by the checks of the socket module. -/
def Sends (s : Session) : Prop := Sendable net e (e.retries + 1).toNat s.sent.length

theorem sendRecv_contained_iff (hclock : Monotone net.clock) {message : Bytes}
    {expectedMsgId : Int} {s : Session} :
    ContainedAt (sendRecv net e message expectedMsgId) s ↔ Sends net e s :=
  attempts_contained_iff hclock

/-! ## What the engine knows -/

section

variable {J : EngineState → Prop}

theorem keeps_attempt (message : Bytes) (expectedMsgId : Int) :
    Keeps (fun s => J s.state) (attempt net e message expectedMsgId) := by
  unfold attempt
  refine keeps_bind (keeps_settimeout (fun _ _ _ hs => hs) _) fun _ => keeps_bind ?_ fun sent => ?_
  · refine keeps_bind (fun _ hs => hs) fun s => keeps_bind (keeps_call _) fun _ =>
      keeps_bind keeps_raiseIf fun _ => keeps_bind keeps_raiseIf fun _ => ?_
    cases net.lookup s.sent.length with
    | some text => exact keeps_pure _
    | none => exact keeps_bind keeps_raiseIf fun _ => keeps_bind (fun _ hs => hs) fun _ =>
        keeps_pure _
  · cases sent with
    | error text => exact keeps_pure _
    | ok deliveries =>
        exact keeps_bind (keeps_monotonic net) fun now =>
          keeps_receive net (fun _ hs => hs) (fun _ _ _ hs => hs) expectedMsgId _ _

theorem keeps_sendRecv (message : Bytes) (expectedMsgId : Int) :
    Keeps (fun s => J s.state) (sendRecv net e message expectedMsgId) := by
  unfold sendRecv
  generalize "None" = last
  induction (e.retries + 1).toNat generalizing last with
  | zero =>
      unfold attempts
      generalize str e.port = port
      exact keeps_bind (keeps_of port) fun _ => keeps_throw _
  | succ left ih =>
      unfold attempts
      refine keeps_bind (keeps_call _) fun _ => ?_
      refine keeps_bind (keeps_thenClose (keeps_attempt net e message expectedMsgId)) ?_
      intro result
      cases result with
      | ok data => exact keeps_pure _
      | error last => exact ih last

end

/-- What holds of the state between any two calls: an engine that has discovered
its device has the keys its level needs, and the privacy key is an AES-128 key. -/
structure Keyed (st : EngineState) : Prop where
  auth : st.discovered = true → e.useAuth = true → st.localizedAuth.isSome = true
  priv : st.discovered = true → e.usePriv = true → st.localizedPriv.isSome = true
  length : ∀ key, st.localizedPriv = some key → key.length = 16

variable {P net e}

theorem Keyed.of_undiscovered {st : EngineState} (h : st.discovered = false)
    (hlength : ∀ key, st.localizedPriv = some key → key.length = 16) : Keyed e st where
  auth := fun hd => absurd hd (by simp [h])
  priv := fun hd => absurd hd (by simp [h])
  length := hlength

theorem Keyed.congr {st st' : EngineState} (h : Keyed e st) (hd : st'.discovered = st.discovered)
    (ha : st'.localizedAuth = st.localizedAuth) (hp : st'.localizedPriv = st.localizedPriv) :
    Keyed e st' where
  auth := by
    rw [hd, ha]
    exact h.auth
  priv := by
    rw [hd, hp]
    exact h.priv
  length := by
    rw [hp]
    exact h.length

/-- Not yet discovered, and any privacy key left from an earlier attempt is one. -/
def Undiscovered (st : EngineState) : Prop :=
  st.discovered = false ∧ ∀ key, st.localizedPriv = some key → key.length = 16

theorem passwordToKey_length (hhash : ∀ name data, 16 ≤ (P.hash name data).length)
    {password engineId key : Bytes} {name : String}
    (h : passwordToKey P password engineId name = .ok key) : (key.take 16).length = 16 := by
  unfold passwordToKey at h
  by_cases hempty : password = []
  · rw [if_pos hempty] at h
    cases h
  · rw [if_neg hempty] at h
    obtain rfl := Except.ok.inj h
    rw [List.length_take]
    exact Nat.min_eq_left (hhash name _)

theorem keeps_localizeKeys (hhash : ∀ name data, 16 ≤ (P.hash name data).length) :
    Keeps (fun s => Undiscovered s.state) (localizeKeys P e) := by
  unfold localizeKeys
  refine keeps_bind keeps_state fun st => keeps_bind (keeps_onlyIf fun _ => ?_) fun _ =>
    keeps_onlyIf fun _ => ?_
  · refine keeps_bind (keeps_of _) fun key => ?_
    exact keeps_modifyState fun _ hs => hs
  · intro s hs
    rw [ends_bind]
    cases hk : passwordToKey P (encodeUtf8 e.privKey) st.engineId e.authHash with
    | error err => exact hs
    | ok key =>
        refine ⟨hs.1, fun key' hkey' => ?_⟩
        obtain rfl : key.take 16 = key' := Option.some.inj hkey'
        exact passwordToKey_length hhash hk

/-- When it returns, it has made the keys of the engine's level. -/
theorem localizeKeys_ok {s s' : Session} {u : Unit} (h : localizeKeys P e s = .ok u s') :
    (e.useAuth = true → s'.state.localizedAuth.isSome = true) ∧
      (e.usePriv = true → s'.state.localizedPriv.isSome = true) := by
  unfold localizeKeys at h
  obtain ⟨st, s₀, -, h⟩ := EngineM.bind_ok.mp h
  obtain ⟨u₁, s₁, hauth, hpriv⟩ := EngineM.bind_ok.mp h
  have hsome : e.useAuth = true → s₁.state.localizedAuth.isSome = true := by
    intro hu
    rcases EngineM.onlyIf_ok.mp hauth with ⟨-, hset⟩ | ⟨hnot, -⟩
    · obtain ⟨key, s₂, -, hset⟩ := EngineM.bind_ok.mp hset
      rw [modifyState_run] at hset
      cases hset
      rfl
    · exact absurd hu hnot
  rcases EngineM.onlyIf_ok.mp hpriv with ⟨-, hset⟩ | ⟨hnot, rfl⟩
  · obtain ⟨key, s₂, hof, hset⟩ := EngineM.bind_ok.mp hset
    obtain ⟨-, rfl⟩ := EngineM.of_ok.mp hof
    rw [modifyState_run] at hset
    cases hset
    exact ⟨hsome, fun _ => rfl⟩
  · exact ⟨hsome, fun hu => absurd hu hnot⟩

theorem ends_adoptEngine (hhash : ∀ name data, 16 ≤ (P.hash name data).length)
    (parsed : ParsedMessage) {s : Session} (hs : Undiscovered s.state) :
    Ends (adoptEngine P net e parsed) s (fun _ s' => Keyed e s'.state)
      fun _ s' => Keyed e s'.state := by
  have hkeyed : ∀ {st}, Undiscovered st → Keyed e st := fun h => .of_undiscovered h.1 h.2
  have hraise : ∀ (err : PyError) (s' : Session), Undiscovered s'.state → Keyed e s'.state :=
    fun _ _ h => hkeyed h
  unfold adoptEngine
  refine keeps_raiseIf.ends_bind (I := fun s => Undiscovered s.state) hs (fun _ s₁ h₁ => ?_) hraise
  refine (keeps_modifyState (J := Undiscovered) ?_).ends_bind h₁ (fun _ s₂ h₂ => ?_) hraise
  · exact fun _ h => h
  refine (keeps_monotonic net).ends_bind h₂ (fun now s₃ h₃ => ?_) hraise
  refine (keeps_modifyState (J := Undiscovered) ?_).ends_bind h₃ (fun _ s₄ h₄ => ?_) hraise
  · exact fun _ h => h
  rw [ends_bind]
  cases hkeys : localizeKeys P e s₄ with
  | error err s₅ =>
      have h₅ : Undiscovered s₅.state := (keeps_localizeKeys hhash).of_error h₄ hkeys
      exact (ends_of_error hkeys).mpr (hkeyed h₅)
  | ok u s₅ =>
      have h₅ : Undiscovered s₅.state := (keeps_localizeKeys hhash).of_ok h₄ hkeys
      obtain ⟨hauth, hpriv⟩ := localizeKeys_ok hkeys
      exact (ends_of_ok hkeys).mpr ⟨fun _ => hauth, fun _ => hpriv, h₅.2⟩

variable (P net e)

/-! ## The steps of an exchange -/

def discoveryReply : EngineM Bytes := do
  let reqId ← nextReqId
  let msgId ← nextMsgId
  let pdu ← of (encRequestPdu GET_REQUEST reqId [SYS_DESCR])
  let scopedPdu ← of (encodeScopedPdu [] [] pdu)
  let message ← of (encodeMessage P msgId [] 0 0 [] FLAG_REPORTABLE scopedPdu none "sha1" none
    MAX_MESSAGE_SIZE USM_SECURITY_MODEL [])
  sendRecv net e message msgId

theorem discover_eq :
    discover P net e = (do
      let st ← state
      onlyIf (st.discovered = false) do
        let reply ← discoveryReply P net e
        let parsed ← of (decodeMessage P reply none none "sha1" false)
        adoptEngine P net e parsed) := by
  unfold discover discoveryReply
  simp only [bind_assoc]

def requestSalt : EngineM Bytes := if hasFlag e.flags FLAG_PRIV then urandom net else pure []

/-- What `requestReply` does once the device is discovered. -/
def request (pduTag : UInt8) (oids : List String) : EngineM (Nat × Bytes) := do
  let reqId ← nextReqId
  let msgId ← nextMsgId
  let pdu ← of (encRequestPdu pduTag reqId oids)
  let st ← state
  let scopedPdu ← of (encodeScopedPdu st.contextEngineId (encodeUtf8 e.contextName) pdu)
  let time ← currentTime net
  let salt ← requestSalt net e
  let message ← of (encodeMessage P msgId st.engineId st.boots time (encodeUtf8 e.username)
    e.flags scopedPdu st.localizedAuth e.authHash st.localizedPriv MAX_MESSAGE_SIZE
    USM_SECURITY_MODEL salt)
  let reply ← sendRecv net e message msgId
  return (reqId, reply)

theorem requestReply_eq (pduTag : UInt8) (oids : List String) :
    requestReply P net e pduTag oids = (do
      discover P net e
      request P net e pduTag oids) := by
  unfold requestReply request requestSalt
  by_cases hflag : hasFlag e.flags FLAG_PRIV = true
  · simp only [hflag, if_true]
  · simp only [hflag]
    rfl

/-- The rest of an exchange once the device is discovered. -/
def answer (pduTag : UInt8) (oids : List String) : EngineM ParsedMessage := do
  let (reqId, reply) ← request P net e pduTag oids
  acceptReply P net e reqId reply

theorem exchange_eq (pduTag : UInt8) (oids : List String) :
    exchange P net e pduTag oids = (do
      discover P net e
      answer P net e pduTag oids) := by
  unfold exchange answer
  rw [requestReply_eq, bind_assoc]

/-! ### What the steps keep -/

section

variable {J : EngineState → Prop}

theorem keeps_nextReqId (h : ∀ st id, J st → J { st with reqId := id }) :
    Keeps (fun s => J s.state) nextReqId := by
  unfold nextReqId
  exact keeps_bind (keeps_modifyState fun st hs => h st _ hs) fun _ =>
    keeps_bind keeps_state fun st => keeps_pure _

theorem keeps_nextMsgId (h : ∀ st id, J st → J { st with msgId := id }) :
    Keeps (fun s => J s.state) nextMsgId := by
  unfold nextMsgId
  exact keeps_bind (keeps_modifyState fun st hs => h st _ hs) fun _ =>
    keeps_bind keeps_state fun st => keeps_pure _

theorem keeps_currentTime : Keeps (fun s => J s.state) (currentTime net) := by
  unfold currentTime
  refine keeps_bind keeps_state fun st => ?_
  cases st.ref with
  | none => exact keeps_pure _
  | some ref => exact keeps_bind (keeps_monotonic net) fun now => keeps_pure _

theorem keeps_discoveryReply (hreq : ∀ st id, J st → J { st with reqId := id })
    (hmsg : ∀ st id, J st → J { st with msgId := id }) :
    Keeps (fun s => J s.state) (discoveryReply P net e) := by
  unfold discoveryReply
  refine keeps_bind (keeps_nextReqId hreq) fun _ => keeps_bind (keeps_nextMsgId hmsg) fun _ => ?_
  refine keeps_bind (keeps_of _) fun pdu => keeps_bind (keeps_of _) fun scopedPdu => ?_
  exact keeps_bind (keeps_of _) fun message => keeps_sendRecv net e message _

theorem keeps_request (hreq : ∀ st id, J st → J { st with reqId := id })
    (hmsg : ∀ st id, J st → J { st with msgId := id }) (pduTag : UInt8) (oids : List String) :
    Keeps (fun s => J s.state) (request P net e pduTag oids) := by
  unfold request
  refine keeps_bind (keeps_nextReqId hreq) fun _ => keeps_bind (keeps_nextMsgId hmsg) fun _ => ?_
  refine keeps_bind (keeps_of _) fun pdu => keeps_bind keeps_state fun st => ?_
  refine keeps_bind (keeps_of _) fun scopedPdu => keeps_bind (keeps_currentTime net) fun time => ?_
  refine keeps_bind ?_ fun salt => keeps_bind (keeps_of _) fun message => ?_
  · unfold requestSalt
    by_cases hflag : hasFlag e.flags FLAG_PRIV = true
    · rw [if_pos hflag]
      exact keeps_urandom net
    · rw [if_neg hflag]
      exact keeps_pure _
  · exact keeps_bind (keeps_sendRecv net e message _) fun reply => keeps_pure _

end

theorem keeps_discover (hhash : ∀ name data, 16 ≤ (P.hash name data).length) :
    Keeps (fun s => Keyed e s.state) (discover P net e) := by
  rw [discover_eq]
  intro s hs
  rw [ends_bind, ends_of_ok (state_run s)]
  by_cases hd : s.state.discovered = false
  · have hu : Undiscovered s.state := ⟨hd, hs.length⟩
    have hraise : ∀ (err : PyError) (s' : Session), Undiscovered s'.state → Keyed e s'.state :=
      fun _ _ h => .of_undiscovered h.1 h.2
    simp only [onlyIf, hd, if_true]
    refine (keeps_discoveryReply P net e (J := Undiscovered) ?_ ?_).ends_bind hu
      (fun reply s₁ h₁ => ?_) hraise
    · exact fun _ _ h => h
    · exact fun _ _ h => h
    refine (keeps_of _).ends_bind (I := fun s => Undiscovered s.state) h₁ (fun m s₂ h₂ => ?_) hraise
    exact ends_adoptEngine hhash m h₂
  · simp only [onlyIf, hd]
    exact hs

theorem keeps_checkTimeWindow {J : EngineState → Prop} (parsed : ParsedMessage) :
    Keeps (fun s => J s.state) (checkTimeWindow net e parsed) := by
  unfold checkTimeWindow
  refine keeps_onlyIf fun _ => keeps_bind keeps_state fun st => ?_
  refine keeps_bind keeps_raiseIf fun _ => keeps_onlyIf fun _ => ?_
  exact keeps_bind (keeps_currentTime net) fun now => keeps_raiseIf

theorem keeps_acceptReply (reqId : Nat) (reply : Bytes) :
    Keeps (fun s => Keyed e s.state) (acceptReply P net e reqId reply) := by
  unfold acceptReply
  refine keeps_bind keeps_state fun st => keeps_bind (keeps_of _) fun parsed => ?_
  refine keeps_bind keeps_raiseIf fun _ => keeps_bind keeps_raiseIf fun _ => ?_
  refine keeps_bind (keeps_checkTimeWindow net e parsed) fun _ => keeps_bind ?_ fun _ => ?_
  · unfold advanceClock
    refine keeps_bind keeps_state fun st => keeps_onlyIf fun _ => ?_
    refine keeps_bind (keeps_monotonic net) fun now => keeps_modifyState fun st hs => ?_
    exact hs.congr rfl rfl rfl
  · refine keeps_bind ?_ fun _ => keeps_pure _
    unfold checkErrorStatus
    generalize str parsed.errorStatus = status
    generalize str parsed.errorIndex = errorIndex
    exact keeps_onlyIf fun _ => keeps_bind (keeps_of status) fun _ =>
      keeps_bind (keeps_of errorIndex) fun _ => keeps_throw _

theorem keeps_request_keyed {pduTag : UInt8} {oids : List String} :
    Keeps (fun s => Keyed e s.state) (request P net e pduTag oids) := by
  refine keeps_request P net e ?_ ?_ pduTag oids
  · exact fun st id hs => hs.congr rfl rfl rfl
  · exact fun st id hs => hs.congr rfl rfl rfl

theorem keeps_exchange (hhash : ∀ name data, 16 ≤ (P.hash name data).length) (pduTag : UInt8)
    (oids : List String) : Keeps (fun s => Keyed e s.state) (exchange P net e pduTag oids) := by
  rw [exchange_eq]
  refine keeps_bind (keeps_discover P net e hhash) fun _ => ?_
  unfold answer
  refine keeps_bind (keeps_request_keyed P net e) ?_
  rintro ⟨reqId, reply⟩
  exact keeps_acceptReply P net e reqId reply

end

/-! ## Building a request -/

/-- The text has the arcs of the identifier, and possibly dots around them. -/
def Names (oid : String) (o : Oid) : Prop := Asn1.arcs oid = .ok (o.arcs.map Int.ofNat)

theorem names_text (o : Oid) : Names o.text o := o.arcs_text

theorem Names.encRequestPdu_eq {oid : String} {o : Oid} (h : Names oid o) (pduTag : UInt8)
    (reqId : Int) : encRequestPdu pduTag reqId [oid] = encRequestPdu pduTag reqId [o.text] := by
  have hoid : encOid oid = encOid o.text := by
    unfold encOid
    rw [h, o.arcs_text, ok_bind, ok_bind, o.encOidBody_arcs, o.encOidBody_arcs]
  have hvarbind : encRequestVarbind oid = encRequestVarbind o.text := by
    unfold encRequestVarbind
    rw [hoid]
  unfold encRequestPdu
  rw [List.mapM_cons, List.mapM_cons, hvarbind]

namespace Outgoing

variable (m : Outgoing) {P : Primitives} {salt : Bytes}

/-- With its keys, and boots and time in range where they are encrypted with, a
request is assembled. -/
theorem encodeMessage_isOk (authKey privKey : Option Bytes) (authHash : String)
    (hblock : ∀ key, key.length = 16 → KeepsBlocks P.encryptBlock key)
    (hauth : hasFlag m.flags FLAG_AUTH = true → authKey.isSome = true)
    (hpriv : hasFlag m.flags FLAG_PRIV = true → ∃ key, privKey = some key ∧ key.length = 16)
    (hsalt : hasFlag m.flags FLAG_PRIV = true → salt.length = PRIV_PARAM_LEN)
    (hrange : hasFlag m.flags FLAG_PRIV = true →
      (0 ≤ m.boots ∧ m.boots < 2 ^ 32) ∧ 0 ≤ m.engineTime ∧ m.engineTime < 2 ^ 32)
    (hsize : (m.draft salt).length < sizeLimit) :
    ∃ message, encodeMessage P m.msgId m.engineId m.boots m.engineTime m.username m.flags
      m.scopedPdu authKey authHash privKey m.maxSize m.secModel salt = .ok message := by
  have hscoped := m.scopedPdu_lt_of_draft hsize
  have hsealed : ∃ msgData privParams,
      sealScopedPdu P m.boots m.engineTime m.flags m.scopedPdu privKey salt =
        .ok (wire msgData.1 msgData.2, privParams) ∧
      (m.message m.gap privParams msgData).length < sizeLimit := by
    by_cases hflag : hasFlag m.flags FLAG_PRIV = true
    · obtain ⟨key, rfl, hkey⟩ := hpriv hflag
      obtain ⟨hboots, htime⟩ := hrange hflag
      obtain ⟨iv, ciphertext, -, -, hlength, hseal⟩ :=
        sealScopedPdu_private (hblock key hkey) hkey hboots htime (hsalt hflag) hflag hscoped
      refine ⟨(OCTET_STRING, ciphertext), salt, hseal, ?_⟩
      rw [m.length_message_data hlength]
      rw [draft, if_pos hflag] at hsize
      exact hsize
    · refine ⟨(SEQUENCE, wires m.scopedItems), [], sealScopedPdu_plain hflag, ?_⟩
      rw [draft, if_neg hflag] at hsize
      exact hsize
  obtain ⟨msgData, privParams, hseal, hlength⟩ := hsealed
  rw [m.encodeMessage_eq hseal hlength]
  unfold signMessage
  by_cases hflag : hasFlag m.flags FLAG_AUTH = true
  · obtain ⟨key, hkey⟩ := Option.isSome_iff_exists.mp (hauth hflag)
    have hoffset := m.authParamsOffset_message hlength
    unfold gap at hoffset
    rw [if_pos hflag, hkey]
    simp only
    rw [hoffset]
    exact ⟨_, rfl⟩
  · rw [if_neg hflag]
    exact ⟨_, rfl⟩

/-- Boots or time out of range do not fit the initialization vector. -/
theorem encodeMessage_escapes {authKey : Option Bytes} {authHash : String} {key scopedPdu : Bytes}
    (hflag : hasFlag m.flags FLAG_PRIV = true)
    (hrange : ¬ ((0 ≤ m.boots ∧ m.boots < 2 ^ 32) ∧ 0 ≤ m.engineTime ∧ m.engineTime < 2 ^ 32)) :
    ¬ Contained (encodeMessage P m.msgId m.engineId m.boots m.engineTime m.username m.flags
      scopedPdu authKey authHash (some key) m.maxSize m.secModel salt) := by
  intro hc
  unfold encodeMessage at hc
  have hseal := (raises_bind.mp hc).1
  unfold sealScopedPdu at hseal
  rw [if_pos hflag] at hseal
  have hiv := (contained_iff_ok (raises_messageIv _ _ _)).mp (raises_bind.mp hseal).1
  obtain ⟨iv, hiv⟩ := hiv
  obtain ⟨hboots, htime, -⟩ := messageIv_ok_iff.mp hiv
  exact hrange ⟨hboots, htime⟩

end Outgoing

/-! ### The discovery message -/

def discoveryRequest (msgId reqId : Nat) : Outgoing where
  msgId := msgId
  maxSize := MAX_MESSAGE_SIZE
  secModel := USM_SECURITY_MODEL
  flags := FLAG_REPORTABLE
  engineId := []
  boots := 0
  engineTime := 0
  username := []
  contextEngineId := []
  contextName := []
  pduTag := GET_REQUEST
  requestId := reqId
  oids := [sysDescr]

theorem nextId_lt (value : Nat) : nextId value < 2 ^ 31 := by
  have hmask : nextId value ≤ 0x7FFFFFFF := Nat.and_le_right
  omega

theorem intOctets_length_le {n : Nat} (h : n < 2 ^ 31) : (intOctets n).length ≤ 5 := by
  have hcount : octetLength n ≤ 4 := octetLength_le (k := 4) (by omega)
  unfold intOctets
  by_cases hz : (n : Int) = 0
  · rw [if_pos hz]
    decide
  · have hpos : 0 < (n : Int) := by omega
    rw [if_neg hz, if_pos hpos, Int.toNat_natCast]
    by_cases hs : signBit (octets (octetLength n) n) = true
    · simp only [hs, if_true, List.length_cons, octets_length]
      omega
    · simp only [hs, Bool.false_eq_true, if_false, octets_length]
      omega

theorem length_wire_le (tag : UInt8) {body : Bytes} (h : body.length < 2 ^ 16) :
    (wire tag body).length ≤ body.length + 4 := by
  have hcount : octetLength body.length ≤ 2 := octetLength_le (k := 2) (by omega)
  rw [Outgoing.length_wire]
  unfold header
  by_cases hshort : body.length < 0x80
  · rw [if_pos hshort]
    simp only [List.length_cons, List.length_nil]
    omega
  · rw [if_neg hshort]
    simp only [List.length_cons, octets_length]
    omega

theorem length_wires_cons (item : UInt8 × Bytes) (items : List (UInt8 × Bytes)) :
    (wires (item :: items)).length = (wire item.1 item.2).length + (wires items).length := by
  rw [wires, List.flatMap_cons, List.length_append]
  rfl

theorem length_wires_nil : (wires []).length = 0 := rfl

theorem discoveryRequest_scopedItems {msgId reqId : Nat} (hreq : reqId < 2 ^ 31) :
    (wires (discoveryRequest msgId reqId).scopedItems).length ≤ 39 := by
  have hid : (wire INTEGER (intOctets reqId)).length ≤ 9 := by
    have hcontent := intOctets_length_le hreq
    have hwire := @length_wire_le INTEGER (intOctets reqId) (by omega)
    omega
  have hzero : (wire INTEGER (intOctets 0)).length = 3 := by decide +kernel
  have hlist : (wire SEQUENCE (wires [Outgoing.varbind sysDescr])).length = 16 := by decide +kernel
  have hempty : (wire OCTET_STRING []).length = 2 := by decide
  have hpdu : (wires (discoveryRequest msgId reqId).pduItems).length ≤ 31 := by
    have hrequest : (discoveryRequest msgId reqId).requestId = reqId := rfl
    have hoids : (discoveryRequest msgId reqId).oids.map Outgoing.varbind =
      [Outgoing.varbind sysDescr] := rfl
    simp only [Outgoing.pduItems, length_wires_cons, length_wires_nil, hrequest, hzero, hoids,
      hlist]
    omega
  have hwire : (wire (discoveryRequest msgId reqId).pduTag
      (wires (discoveryRequest msgId reqId).pduItems)).length ≤
        (wires (discoveryRequest msgId reqId).pduItems).length + 4 := length_wire_le _ (by omega)
  have hengine : (discoveryRequest msgId reqId).contextEngineId = [] := rfl
  have hname : (discoveryRequest msgId reqId).contextName = [] := rfl
  simp only [Outgoing.scopedItems, length_wires_cons, length_wires_nil, hengine, hname, hempty]
  omega

theorem discoveryRequest_globalItems {msgId reqId : Nat} (hmsg : msgId < 2 ^ 31) :
    (wires (discoveryRequest msgId reqId).globalItems).length ≤ 20 := by
  have hid : (wire INTEGER (intOctets msgId)).length ≤ 9 := by
    have hcontent := intOctets_length_le hmsg
    have hwire := @length_wire_le INTEGER (intOctets msgId) (by omega)
    omega
  have hmax : (wire INTEGER (intOctets MAX_MESSAGE_SIZE)).length = 5 := by decide +kernel
  have hflags : (wire OCTET_STRING [FLAG_REPORTABLE]).length = 3 := by decide
  have hmodel : (wire INTEGER (intOctets USM_SECURITY_MODEL)).length = 3 := by decide +kernel
  have hitems : (discoveryRequest msgId reqId).globalItems =
      [(INTEGER, intOctets msgId), (INTEGER, intOctets MAX_MESSAGE_SIZE),
        (OCTET_STRING, [FLAG_REPORTABLE]), (INTEGER, intOctets USM_SECURITY_MODEL)] := rfl
  simp only [hitems, length_wires_cons, length_wires_nil, hmax, hflags, hmodel]
  omega

theorem discoveryRequest_small {msgId reqId : Nat} (hmsg : msgId < 2 ^ 31) (hreq : reqId < 2 ^ 31) :
    ((discoveryRequest msgId reqId).draft []).length < sizeLimit := by
  have hscoped := @discoveryRequest_scopedItems msgId reqId hreq
  have hglobal := @discoveryRequest_globalItems msgId reqId hmsg
  have hsecurity : (wire OCTET_STRING (wire SEQUENCE
      ((discoveryRequest msgId reqId).security [] []))).length = 18 := by
    change (wire OCTET_STRING (wire SEQUENCE ((discoveryRequest 0 0).security [] []))).length = 18
    decide +kernel
  have hversion : (wire INTEGER (intOctets SNMP_VERSION_3)).length = 3 := by decide +kernel
  have hdata : (wire SEQUENCE (wires (discoveryRequest msgId reqId).scopedItems)).length ≤
      (wires (discoveryRequest msgId reqId).scopedItems).length + 4 := length_wire_le _ (by omega)
  have hheader : (wire SEQUENCE (wires (discoveryRequest msgId reqId).globalItems)).length ≤
      (wires (discoveryRequest msgId reqId).globalItems).length + 4 := length_wire_le _ (by omega)
  have hbody : ((discoveryRequest msgId reqId).body [] []
      (SEQUENCE, wires (discoveryRequest msgId reqId).scopedItems)).length ≤ 88 := by
    simp only [Outgoing.body, Outgoing.versionItems, List.cons_append, List.nil_append,
      length_wires_cons, length_wires_nil, hsecurity, hversion]
    omega
  have hmessage : ((discoveryRequest msgId reqId).message [] []
      (SEQUENCE, wires (discoveryRequest msgId reqId).scopedItems)).length ≤
        ((discoveryRequest msgId reqId).body [] []
          (SEQUENCE, wires (discoveryRequest msgId reqId).scopedItems)).length + 4 :=
    length_wire_le _ (by omega)
  have hpriv : ¬ hasFlag (discoveryRequest msgId reqId).flags FLAG_PRIV = true := by
    change ¬ hasFlag FLAG_REPORTABLE FLAG_PRIV = true
    decide
  have hauth : ¬ hasFlag (discoveryRequest msgId reqId).flags FLAG_AUTH = true := by
    change ¬ hasFlag FLAG_REPORTABLE FLAG_AUTH = true
    decide
  have hlarge : 256 ≤ sizeLimit := Nat.le_self_pow (by decide) 256
  rw [Outgoing.draft, if_neg hpriv, Outgoing.gap, if_neg hauth]
  omega

/-! ## Containment of one step -/

theorem nextReqId_run (s : Session) : nextReqId s = .ok (nextId s.state.reqId)
    { s with state := { s.state with reqId := nextId s.state.reqId } } := rfl

theorem nextMsgId_run (s : Session) : nextMsgId s = .ok (nextId s.state.msgId)
    { s with state := { s.state with msgId := nextId s.state.msgId } } := rfl

theorem of_run {α : Type} {x : Except PyError α} {a : α} (h : x = .ok a) (s : Session) :
    of x s = .ok a s := by
  rw [h]
  rfl

section

variable (P : Primitives) (net : Network) (e : SnmpV3Engine)

theorem hasFlag_priv_flags : hasFlag e.flags FLAG_PRIV = e.usePriv := by
  unfold SnmpV3Engine.flags SnmpV3Engine.useAuth SnmpV3Engine.usePriv
  cases e.level <;> decide

theorem hasFlag_auth_flags : hasFlag e.flags FLAG_AUTH = e.useAuth := by
  unfold SnmpV3Engine.flags SnmpV3Engine.useAuth SnmpV3Engine.usePriv
  cases e.level <;> decide

def estimate (s : Session) : Int :=
  match s.state.ref with
  | none => s.state.engineTime
  | some ref => min (s.state.engineTime + truncate (net.clock s.reads - ref)) 2147483647

theorem currentTime_run (s : Session) : ∃ reads, currentTime net s =
    .ok (estimate net s) { s with reads := reads } := by
  unfold currentTime estimate
  cases h : s.state.ref with
  | none =>
      refine ⟨s.reads, ?_⟩
      change EStateM.bind _ _ s = _
      simp only [EStateM.bind, state_run, h]
      rfl
  | some ref =>
      refine ⟨s.reads + 1, ?_⟩
      change EStateM.bind _ _ s = _
      simp only [EStateM.bind, state_run, h]
      rfl

def requestOf (s : Session) (pduTag : UInt8) (o : Oid) : Outgoing where
  msgId := nextId s.state.msgId
  maxSize := MAX_MESSAGE_SIZE
  secModel := USM_SECURITY_MODEL
  flags := e.flags
  engineId := s.state.engineId
  boots := s.state.boots
  engineTime := estimate net s
  username := encodeUtf8 e.username
  contextEngineId := s.state.contextEngineId
  contextName := encodeUtf8 e.contextName
  pduTag := pduTag
  requestId := nextId s.state.reqId
  oids := [o]

/-- Boots and time of an encrypted request fit the four octets each has. -/
def ClockFits (s : Session) : Prop :=
  e.usePriv = true →
    (0 ≤ s.state.boots ∧ s.state.boots < 2 ^ 32) ∧ 0 ≤ estimate net s ∧ estimate net s < 2 ^ 32

variable {P net e}

theorem discoveryReply_contained_iff (hclock : Monotone net.clock)
    (hblock : ∀ key, key.length = 16 → KeepsBlocks P.encryptBlock key) {s : Session} :
    ContainedAt (discoveryReply P net e) s ↔ Sends net e s := by
  have hsize := discoveryRequest_small (nextId_lt s.state.msgId) (nextId_lt s.state.reqId)
  generalize hm : discoveryRequest (nextId s.state.msgId) (nextId s.state.reqId) = m at hsize
  have hscoped := m.scopedPdu_lt_of_draft hsize
  have hflags : m.flags = FLAG_REPORTABLE := by rw [← hm]; rfl
  have hname : sysDescr.text = SYS_DESCR := by decide +kernel
  have hpdu : encRequestPdu GET_REQUEST (nextId s.state.reqId) [SYS_DESCR] =
      .ok (wire m.pduTag (wires m.pduItems)) := by
    rw [← m.encRequestPdu_eq (m.pduItems_lt_of_scopedPdu hscoped), ← hm, ← hname]
    rfl
  have hscopedPdu : encodeScopedPdu [] [] (wire m.pduTag (wires m.pduItems)) =
      .ok m.scopedPdu := by
    rw [← m.encodeScopedPdu_eq hscoped, ← hm]
    rfl
  obtain ⟨message, hmessage⟩ := m.encodeMessage_isOk none none "sha1" hblock
    (fun h => absurd h (by rw [hflags]; decide)) (fun h => absurd h (by rw [hflags]; decide))
    (fun h => absurd h (by rw [hflags]; decide)) (fun h => absurd h (by rw [hflags]; decide)) hsize
  have hmessage' : encodeMessage P (nextId s.state.msgId) [] 0 0 [] FLAG_REPORTABLE m.scopedPdu
      none "sha1" none MAX_MESSAGE_SIZE USM_SECURITY_MODEL [] = .ok message := by
    rw [← hmessage, ← hm]
    rfl
  unfold discoveryReply
  rw [ContainedAt, raisesAt_bind_ok (nextReqId_run s), raisesAt_bind_ok (nextMsgId_run _),
    raisesAt_bind_ok (of_run hpdu _), raisesAt_bind_ok (of_run hscopedPdu _),
    raisesAt_bind_ok (of_run hmessage' _)]
  exact sendRecv_contained_iff net e hclock

theorem requestSalt_run (net : Network) (e : SnmpV3Engine) (s : Session) :
    ∃ salt salts, requestSalt net e s = .ok salt { s with salts := salts } ∧
      (e.usePriv = true → salt = net.salt s.salts) := by
  unfold requestSalt
  rw [hasFlag_priv_flags]
  by_cases hpriv : e.usePriv = true
  · rw [if_pos hpriv]
    exact ⟨_, _, rfl, fun _ => rfl⟩
  · rw [if_neg hpriv]
    exact ⟨[], s.salts, rfl, fun h => absurd h hpriv⟩

/-! ### The request -/

section

variable {s : Session} {m : Outgoing} {salt : Bytes}

/-- With the session's keys a message is encoded, if its clock fits. -/
theorem encodeMessage_isOk_of_keyed
    (hblock : ∀ key, key.length = 16 → KeepsBlocks P.encryptBlock key) (hs : Keyed e s.state)
    (hd : s.state.discovered = true) (hflags : m.flags = e.flags)
    (hsalt : e.usePriv = true → salt.length = PRIV_PARAM_LEN)
    (hsize : (m.draft salt).length < sizeLimit)
    (hfits : e.usePriv = true →
      (0 ≤ m.boots ∧ m.boots < 2 ^ 32) ∧ 0 ≤ m.engineTime ∧ m.engineTime < 2 ^ 32) :
    ∃ message, encodeMessage P m.msgId m.engineId m.boots m.engineTime m.username m.flags
      m.scopedPdu s.state.localizedAuth e.authHash s.state.localizedPriv m.maxSize m.secModel
      salt = .ok message := by
  have hpriv : hasFlag m.flags FLAG_PRIV = true → e.usePriv = true := by
    rw [hflags, hasFlag_priv_flags]
    exact id
  apply m.encodeMessage_isOk _ _ _ hblock
  · rw [hflags, hasFlag_auth_flags]
    exact hs.auth hd
  · intro h
    obtain ⟨key, hkey⟩ := Option.isSome_iff_exists.mp (hs.priv hd (hpriv h))
    exact ⟨key, hkey, hs.length key hkey⟩
  · exact fun h => hsalt (hpriv h)
  · exact fun h => hfits (hpriv h)
  · exact hsize

theorem fits_of_encodeMessage_contained (hs : Keyed e s.state) (hd : s.state.discovered = true)
    (hflags : m.flags = e.flags)
    (hencode : Contained (encodeMessage P m.msgId m.engineId m.boots m.engineTime m.username
      m.flags m.scopedPdu s.state.localizedAuth e.authHash s.state.localizedPriv m.maxSize
      m.secModel salt)) (hu : e.usePriv = true) :
    (0 ≤ m.boots ∧ m.boots < 2 ^ 32) ∧ 0 ≤ m.engineTime ∧ m.engineTime < 2 ^ 32 := by
  obtain ⟨key, hkey⟩ := Option.isSome_iff_exists.mp (hs.priv hd hu)
  have hflag : hasFlag m.flags FLAG_PRIV = true := by
    rw [hflags, hasFlag_priv_flags]
    exact hu
  by_contra hnot
  rw [hkey] at hencode
  exact m.encodeMessage_escapes hflag hnot hencode

/-- An encrypted draft only depends on a salt that was drawn for it. -/
theorem draft_length_of_drawn {drawn : Bytes} (hflags : m.flags = e.flags)
    (hdrawn : e.usePriv = true → salt = drawn) :
    (m.draft salt).length = (m.draft drawn).length := by
  unfold Outgoing.draft
  by_cases hflag : hasFlag m.flags FLAG_PRIV = true
  · have hu : e.usePriv = true := by
      rw [hflags, hasFlag_priv_flags] at hflag
      exact hflag
    rw [hdrawn hu]
  · rw [if_neg hflag, if_neg hflag]

end

/-- A request of a keyed engine is contained exactly when it can be sent and its clock
fits. -/
theorem request_contained_iff (hclock : Monotone net.clock)
    (hblock : ∀ key, key.length = 16 → KeepsBlocks P.encryptBlock key) {s : Session}
    (hs : Keyed e s.state) (hd : s.state.discovered = true) {pduTag : UInt8} {oid : String}
    {o : Oid} (hname : Names oid o)
    (hsize : ((requestOf net e s pduTag o).draft (net.salt s.salts)).length < sizeLimit) :
    ContainedAt (request P net e pduTag [oid]) s ↔ Sends net e s ∧ ClockFits net e s := by
  generalize hm : requestOf net e s pduTag o = m at hsize
  have hscoped := m.scopedPdu_lt_of_draft hsize
  have hpdu : encRequestPdu pduTag (nextId s.state.reqId) [oid] =
      .ok (wire m.pduTag (wires m.pduItems)) := by
    rw [hname.encRequestPdu_eq, ← m.encRequestPdu_eq (m.pduItems_lt_of_scopedPdu hscoped), ← hm]
    rfl
  have hscopedPdu : encodeScopedPdu s.state.contextEngineId (encodeUtf8 e.contextName)
      (wire m.pduTag (wires m.pduItems)) = .ok m.scopedPdu := by
    rw [← m.encodeScopedPdu_eq hscoped, ← hm]
    rfl
  have hflags : m.flags = e.flags := by rw [← hm]; rfl
  have hrange : ClockFits net e s ↔ (e.usePriv = true →
      (0 ≤ m.boots ∧ m.boots < 2 ^ 32) ∧ 0 ≤ m.engineTime ∧ m.engineTime < 2 ^ 32) := by
    rw [← hm]
    rfl
  unfold request
  rw [ContainedAt, raisesAt_bind_ok (nextReqId_run s), raisesAt_bind_ok (nextMsgId_run _),
    raisesAt_bind_ok (of_run hpdu _), raisesAt_bind_ok (state_run _),
    raisesAt_bind_ok (of_run hscopedPdu _)]
  obtain ⟨reads, htime⟩ := currentTime_run net { s with
    state := { s.state with reqId := nextId s.state.reqId, msgId := nextId s.state.msgId } }
  rw [raisesAt_bind_ok htime]
  obtain ⟨salt, salts, hsalt, hdrawn⟩ := requestSalt_run net e { s with
    state := { s.state with reqId := nextId s.state.reqId, msgId := nextId s.state.msgId }
    reads := reads }
  rw [raisesAt_bind_ok hsalt]
  have hdraft : (m.draft salt).length < sizeLimit := by
    rw [draft_length_of_drawn hflags hdrawn]
    exact hsize
  have hlength : e.usePriv = true → salt.length = PRIV_PARAM_LEN := by
    intro hu
    rw [hdrawn hu]
    exact net.salt_length _
  have hmessage : encodeMessage P (nextId s.state.msgId) s.state.engineId s.state.boots
      (estimate net s) (encodeUtf8 e.username) e.flags m.scopedPdu s.state.localizedAuth e.authHash
      s.state.localizedPriv MAX_MESSAGE_SIZE USM_SECURITY_MODEL salt =
        encodeMessage P m.msgId m.engineId m.boots m.engineTime m.username m.flags m.scopedPdu
          s.state.localizedAuth e.authHash s.state.localizedPriv m.maxSize m.secModel salt := by
    rw [← hm]
    rfl
  rw [raisesAt_bind, raisesAt_of, hrange]
  change Contained (encodeMessage P (nextId s.state.msgId) s.state.engineId s.state.boots
      (estimate net s) (encodeUtf8 e.username) e.flags m.scopedPdu s.state.localizedAuth e.authHash
      s.state.localizedPriv MAX_MESSAGE_SIZE USM_SECURITY_MODEL salt) ∧ _ ↔ _
  rw [hmessage]
  constructor
  · rintro ⟨hencode, hsend⟩
    have hfits := fits_of_encodeMessage_contained hs hd hflags hencode
    obtain ⟨message, hok⟩ := encodeMessage_isOk_of_keyed hblock hs hd hflags hlength hdraft hfits
    have hwait := (raisesAt_bind.mp (hsend message _ (of_run (hmessage.trans hok) _))).1
    have hsends := (sendRecv_contained_iff net e hclock).mp hwait
    exact ⟨hsends, hfits⟩
  · rintro ⟨hwait, hfits⟩
    obtain ⟨message, hok⟩ := encodeMessage_isOk_of_keyed hblock hs hd hflags hlength hdraft hfits
    rw [hok]
    refine ⟨raises_ok message, fun message' s' hsent => ?_⟩
    obtain ⟨-, rfl⟩ := EngineM.of_ok.mp hsent
    apply raisesAt_bind.mpr
    exact ⟨(sendRecv_contained_iff net e hclock).mpr hwait, fun _ _ _ => raisesAt_pure _ _⟩

/-! ### The discovery -/

theorem localizeKeys_contained (s : Session) : ContainedAt (localizeKeys P e) s := by
  have hkey : ∀ password engineId, Contained (passwordToKey P password engineId e.authHash) := by
    intro password engineId
    unfold passwordToKey
    by_cases hempty : password = []
    · rw [if_pos hempty]
      exact (raises_error _).mpr trivial
    · rw [if_neg hempty]
      exact raises_ok _
  unfold localizeKeys
  rw [ContainedAt, raisesAt_bind_ok (state_run s), raisesAt_bind]
  constructor
  · rw [raisesAt_onlyIf]
    intro _
    exact raisesAt_bind.mpr ⟨raisesAt_of.mpr (hkey _ _),
      fun key s' _ => raisesAt_of_ok (modifyState_run _ _)⟩
  · intro _ s' _
    rw [raisesAt_onlyIf]
    intro _
    exact raisesAt_bind.mpr ⟨raisesAt_of.mpr (hkey _ _),
      fun key s' _ => raisesAt_of_ok (modifyState_run _ _)⟩

theorem adoptEngine_contained (parsed : ParsedMessage) (s : Session) :
    ContainedAt (adoptEngine P net e parsed) s := by
  unfold adoptEngine
  refine raisesAt_bind.mpr ⟨raisesAt_raiseIf.mpr fun _ => trivial, fun _ s₁ _ => ?_⟩
  rw [raisesAt_bind_ok (modifyState_run _ _), raisesAt_bind_ok (monotonic_run net _),
    raisesAt_bind_ok (modifyState_run _ _)]
  exact raisesAt_bind.mpr ⟨localizeKeys_contained _,
    fun _ s₂ _ => raisesAt_of_ok (modifyState_run _ _)⟩

theorem discover_contained_iff (hclock : Monotone net.clock)
    (hblock : ∀ key, key.length = 16 → KeepsBlocks P.encryptBlock key) {s : Session} :
    ContainedAt (discover P net e) s ↔
      (s.state.discovered = false → Sends net e s ∧
        ∀ reply s', discoveryReply P net e s = .ok reply s' →
          Readable P reply none none "sha1" false) := by
  have hdecode : ∀ reply, Contained (decodeMessage P reply none none "sha1" false) ↔
      Readable P reply none none "sha1" false :=
    fun reply => decodeMessage_contained_iff fun key h => by cases h
  rw [discover_eq, ContainedAt, raisesAt_bind_ok (state_run s), raisesAt_onlyIf]
  refine imp_congr_right fun _ => ?_
  rw [raisesAt_bind]
  refine and_congr (discoveryReply_contained_iff hclock hblock) ?_
  refine forall_congr' fun reply => forall_congr' fun s' => imp_congr_right fun _ => ?_
  rw [← hdecode, raisesAt_bind, raisesAt_of]
  exact and_iff_left fun parsed s'' _ => adoptEngine_contained parsed s''

theorem discovered_of_discover {s s' : Session} {u : Unit}
    (h : discover P net e s = .ok u s') : s'.state.discovered = true := by
  rw [discover_eq] at h
  obtain ⟨st, s₀, hstate, h⟩ := EngineM.bind_ok.mp h
  obtain ⟨rfl, rfl⟩ := EngineM.state_ok.mp hstate
  rcases EngineM.onlyIf_ok.mp h with ⟨-, h⟩ | ⟨hd, rfl⟩
  · obtain ⟨reply, s₁, -, h⟩ := EngineM.bind_ok.mp h
    obtain ⟨parsed, s₂, -, h⟩ := EngineM.bind_ok.mp h
    unfold adoptEngine at h
    obtain ⟨_, s₃, -, h⟩ := EngineM.bind_ok.mp h
    obtain ⟨_, s₄, -, h⟩ := EngineM.bind_ok.mp h
    obtain ⟨_, s₅, -, h⟩ := EngineM.bind_ok.mp h
    obtain ⟨_, s₆, -, h⟩ := EngineM.bind_ok.mp h
    obtain ⟨_, s₇, -, h⟩ := EngineM.bind_ok.mp h
    rw [modifyState_run] at h
    cases h
    rfl
  · simpa using hd

/-! ### The reply -/

variable (P net e)

structure PassesChecks (s : Session) (reqId : Nat) (m : ParsedMessage) : Prop where
  requestId : m.requestId = reqId
  engineId : m.engineId = [] ∨ m.engineId = s.state.engineId
  inWindow : ∃ s', checkTimeWindow net e m s = .ok () s'

def StatusPrints (m : ParsedMessage) : Prop :=
  m.errorStatus = 0 ∨
    (m.errorStatus.natAbs < 10 ^ maxStrDigits ∧ m.errorIndex.natAbs < 10 ^ maxStrDigits)

/-- The reply to the request `reqId` can be read, and so can its error status
unless another check refuses it before. -/
def ReplyMeets (s : Session) (reqId : Nat) (reply : Bytes) : Prop :=
  Readable P reply s.state.localizedPriv s.state.localizedAuth e.authHash e.useAuth ∧
    ∀ m, decodeReply P e s.state reply = .ok m → PassesChecks net e s reqId m → StatusPrints m

variable {P net e}

theorem checkErrorStatus_contained_iff {m : ParsedMessage} {s : Session} :
    ContainedAt (checkErrorStatus m) s ↔ StatusPrints m := by
  have hstatus := (contained_iff_ok (raises_str m.errorStatus)).trans str_isOk_iff
  have hindex := (contained_iff_ok (raises_str m.errorIndex)).trans str_isOk_iff
  have hok : (∃ text, str m.errorStatus = .ok text) ↔ _ := str_isOk_iff
  unfold StatusPrints
  rw [← hstatus, ← hindex]
  unfold checkErrorStatus
  generalize str m.errorStatus = status at hstatus hok ⊢
  generalize str m.errorIndex = errorIndex
  rw [ContainedAt, raisesAt_onlyIf, or_iff_not_imp_left]
  refine imp_congr_right fun _ => ?_
  rw [raisesAt_bind, raisesAt_of]
  refine and_congr_right fun hc => ?_
  obtain ⟨text, htext⟩ := hok.mpr (hstatus.mp hc)
  constructor
  · intro h
    exact raisesAt_of.mp (raisesAt_bind.mp (h text s (of_run htext s))).1
  · intro hi _ s' _
    exact raisesAt_bind.mpr ⟨raisesAt_of.mpr hi, fun _ _ _ => (raisesAt_throw _ _).mpr trivial⟩

theorem checkTimeWindow_contained (m : ParsedMessage) (s : Session) :
    ContainedAt (checkTimeWindow net e m) s := by
  unfold checkTimeWindow
  rw [ContainedAt, raisesAt_onlyIf]
  intro _
  rw [raisesAt_bind_ok (state_run s)]
  refine raisesAt_bind.mpr ⟨raisesAt_raiseIf.mpr fun _ => trivial, fun _ s₁ _ => ?_⟩
  rw [raisesAt_onlyIf]
  intro _
  obtain ⟨reads, htime⟩ := currentTime_run net s₁
  rw [raisesAt_bind_ok htime, raisesAt_raiseIf]
  exact fun _ => trivial

theorem acceptReply_contained_iff (hblock : ∀ key, key.length = 16 → KeepsBlocks P.encryptBlock key)
    {s : Session} (hs : Keyed e s.state) {reqId : Nat} {reply : Bytes} :
    ContainedAt (acceptReply P net e reqId reply) s ↔ ReplyMeets P net e s reqId reply := by
  have hkey : ∀ key, s.state.localizedPriv = some key →
      KeepsBlocks P.encryptBlock (key.take 16) := by
    intro key hkey
    rw [List.take_of_length_le (hs.length key hkey).le]
    exact hblock key (hs.length key hkey)
  unfold acceptReply
  rw [ContainedAt, raisesAt_bind_ok (state_run s), raisesAt_bind, raisesAt_of]
  refine and_congr (decodeMessage_contained_iff hkey) ?_
  constructor
  · rintro h m hm ⟨hid, hengine, s₁, hwindow⟩
    have hrest := h m s (of_run hm s)
    have hid' : raiseIf (m.requestId ≠ reqId)
        (.snmpError "response request-id does not match the request") s = .ok () s :=
      EngineM.raiseIf_ok.mpr ⟨not_not.mpr hid, rfl⟩
    have hengine' : raiseIf (m.engineId ≠ [] ∧ m.engineId ≠ s.state.engineId)
        (.snmpError "response came from a different authoritative engineID") s = .ok () s :=
      EngineM.raiseIf_ok.mpr ⟨fun h => hengine.elim h.1 h.2, rfl⟩
    obtain ⟨s₂, hclock⟩ := advanceClock_total net m s₁
    rw [raisesAt_bind_ok hid', raisesAt_bind_ok hengine', raisesAt_bind_ok hwindow,
      raisesAt_bind_ok hclock, raisesAt_bind] at hrest
    exact checkErrorStatus_contained_iff.mp hrest.1
  · intro h m s₀ hparsed
    obtain ⟨hm, rfl⟩ := EngineM.of_ok.mp hparsed
    refine raisesAt_bind.mpr ⟨raisesAt_raiseIf.mpr fun _ => trivial, fun _ s₁ hpassed => ?_⟩
    obtain ⟨hid, rfl⟩ := EngineM.raiseIf_ok.mp hpassed
    refine raisesAt_bind.mpr ⟨raisesAt_raiseIf.mpr fun _ => trivial, fun _ s₁ hmatched => ?_⟩
    obtain ⟨hengine, rfl⟩ := EngineM.raiseIf_ok.mp hmatched
    refine raisesAt_bind.mpr ⟨checkTimeWindow_contained m _, fun _ s₁ hwindow => ?_⟩
    obtain ⟨s₂, hclock⟩ := advanceClock_total net m s₁
    rw [raisesAt_bind_ok hclock]
    have hpasses : PassesChecks net e s reqId m :=
      ⟨not_not.mp hid, or_iff_not_imp_left.mpr fun h => not_not.mp (not_and.mp hengine h), s₁,
        hwindow⟩
    exact raisesAt_bind.mpr ⟨checkErrorStatus_contained_iff.mpr (h m hm hpasses),
      fun _ _ _ => raisesAt_pure _ _⟩

/-! ## Containment of an exchange -/

inductive Step
  | discovery
  | request (pduTag : UInt8) (oid : String)

variable (P net e)

/-- The discovery can be sent, and the datagram it takes as the reply can be read. -/
def DiscoveryMeets (s : Session) : Prop :=
  Sends net e s ∧ ∀ reply s', discoveryReply P net e s = .ok reply s' →
    Readable P reply none none "sha1" false

/-- The request can be sent, the clock it is encrypted with fits, and so does the
datagram it takes as the reply. -/
def RequestMeets (pduTag : UInt8) (oid : String) (s : Session) : Prop :=
  (Sends net e s ∧ ClockFits net e s) ∧
    ∀ reqId reply s', request P net e pduTag [oid] s = .ok (reqId, reply) s' →
      ReplyMeets P net e s' reqId reply

def Meets : Step → Session → Prop
  | .discovery, s => DiscoveryMeets P net e s
  | .request pduTag oid, s => RequestMeets P net e pduTag oid s

inductive ExchangeSteps (pduTag : UInt8) (oid : String) (s : Session) : Step → Session → Prop
  | discovery : s.state.discovered = false → ExchangeSteps pduTag oid s .discovery s
  | request {s' : Session} : discover P net e s = .ok () s' →
      ExchangeSteps pduTag oid s (.request pduTag oid) s'

variable {P net e}

theorem exchange_contained_iff (hclock : Monotone net.clock)
    (hhash : ∀ name data, 16 ≤ (P.hash name data).length)
    (hblock : ∀ key, key.length = 16 → KeepsBlocks P.encryptBlock key) {s : Session}
    (hs : Keyed e s.state) {pduTag : UInt8} {oid : String} {o : Oid} (hname : Names oid o)
    (hsize : ∀ t, discover P net e s = .ok () t →
      ((requestOf net e t pduTag o).draft (net.salt t.salts)).length < sizeLimit) :
    ContainedAt (exchange P net e pduTag [oid]) s ↔
      ∀ step t, ExchangeSteps P net e pduTag oid s step t → Meets P net e step t := by
  have hrest : ∀ t, discover P net e s = .ok () t →
      (ContainedAt (answer P net e pduTag [oid]) t ↔ RequestMeets P net e pduTag oid t) := by
    intro t ht
    have hkeyed : Keyed e t.state := (keeps_discover P net e hhash).of_ok hs ht
    have hrequest :=
      request_contained_iff hclock hblock hkeyed (discovered_of_discover ht) hname (hsize t ht)
    have haccept : ∀ {reqId reply t'}, request P net e pduTag [oid] t = .ok (reqId, reply) t' →
        (ContainedAt (acceptReply P net e reqId reply) t' ↔ ReplyMeets P net e t' reqId reply) := by
      intro reqId reply t' hr
      have hkeyed' : Keyed e t'.state := (keeps_request_keyed P net e).of_ok hkeyed hr
      exact acceptReply_contained_iff hblock hkeyed'
    unfold answer
    rw [ContainedAt, raisesAt_bind, RequestMeets]
    refine and_congr hrequest ?_
    constructor
    · intro h reqId reply t' hr
      exact (haccept hr).mp (h (reqId, reply) t' hr)
    · rintro h ⟨reqId, reply⟩ t' hr
      exact (haccept hr).mpr (h reqId reply t' hr)
  rw [exchange_eq, ContainedAt, raisesAt_bind]
  constructor
  · rintro ⟨hdiscover, hexchange⟩ step t hstep
    cases hstep with
    | discovery hd => exact (discover_contained_iff hclock hblock).mp hdiscover hd
    | request ht => exact (hrest t ht).mp (hexchange () t ht)
  · intro h
    refine ⟨(discover_contained_iff hclock hblock).mpr fun hd => h _ _ (.discovery hd), ?_⟩
    intro _ t ht
    exact (hrest t ht).mpr (h _ _ (.request ht))

end

end NetForge.Ingest.Snmp
