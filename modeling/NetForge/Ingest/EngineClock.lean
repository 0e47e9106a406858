import NetForge.Ingest.Calls
import Mathlib.Data.Prod.Lex
import Mathlib.Logic.Relation

/-! # The device's clock, as the engine keeps it

An engine that has discovered its device stores the boots and the time it was last
told, and the clock reading at which it was told. An exchange checks the reply first
and takes over its clock last, so a refused reply leaves no trace, and a reply that
is taken over moves the clock forward.
-/

namespace NetForge.Ingest.Snmp

open Python Asn1 EngineM Calculus

/-- The device's clock: its boots, then the seconds since the last of them. -/
def EngineState.deviceClock (st : EngineState) : Int ×ₗ Int := toLex (st.boots, st.engineTime)

/-- The two states know the same device, at the same time, under the same keys. -/
structure SameClock (st st' : EngineState) : Prop where
  engineId : st'.engineId = st.engineId
  boots : st'.boots = st.boots
  engineTime : st'.engineTime = st.engineTime
  ref : st'.ref = st.ref
  localizedAuth : st'.localizedAuth = st.localizedAuth
  localizedPriv : st'.localizedPriv = st.localizedPriv
  discovered : st'.discovered = st.discovered

theorem SameClock.refl (st : EngineState) : SameClock st st := ⟨rfl, rfl, rfl, rfl, rfl, rfl, rfl⟩

/-- The clock of the reply comes after the stored one. -/
def Later (st : EngineState) (m : ParsedMessage) : Prop :=
  st.boots < m.boots ∨ (m.boots = st.boots ∧ st.engineTime < m.engineTime)

instance (st : EngineState) (m : ParsedMessage) : Decidable (Later st m) :=
  inferInstanceAs (Decidable (_ ∨ (_ ∧ _)))

/-- The state that takes over a later clock at the local reading `now`. -/
def EngineState.adopt (st : EngineState) (m : ParsedMessage) (now : Rat) : EngineState :=
  if Later st m then
    { st with
      boots := m.boots
      engineTime := m.engineTime
      ref := some now }
  else st

theorem deviceClock_le_adopt (st : EngineState) (m : ParsedMessage) (now : Rat) :
    st.deviceClock ≤ (st.adopt m now).deviceClock := by
  unfold EngineState.adopt
  by_cases hlater : Later st m
  · rw [if_pos hlater]
    unfold EngineState.deviceClock
    rw [Prod.Lex.toLex_le_toLex]
    rcases hlater with hboots | ⟨hboots, htime⟩
    · exact .inl hboots
    · exact .inr ⟨hboots.symm, htime.le⟩
  · rw [if_neg hlater]

section

variable (P : Primitives) (net : Network) (e : SnmpV3Engine)

/-- The reply is inside the time window, for an engine that authenticates: it comes from a
later boot of the device, or its time is close to the engine's estimate of it. -/
def InWindow (s : Session) (m : ParsedMessage) : Prop :=
  e.useAuth = true →
    s.state.boots < m.boots ∨
      (m.boots = s.state.boots ∧ (m.engineTime - estimate net s).natAbs ≤ TIME_WINDOW_SECONDS)

/-- What an exchange checks before it takes over a clock. -/
structure Trusted (s : Session) (reqId : Nat) (m : ParsedMessage) : Prop where
  requestId : m.requestId = reqId
  engineId : m.engineId = [] ∨ m.engineId = s.state.engineId
  inWindow : InWindow net e s m

/-- The texts under which an exchange refuses a reply that it could read. -/
def refusals : List String :=
  ["response request-id does not match the request",
    "response came from a different authoritative engineID",
    "response is outside the time window (stale engine boots)",
    "response is outside the time window (clock skew)"]

def Refuses {α : Type} (x : EngineM α) (s : Session) : Prop :=
  ∃ text ∈ refusals, ∃ s', x s = .error (.snmpError text) s' ∧ s'.state = s.state

variable {net e}

theorem Refuses.bind {α β : Type} {x : EngineM α} {f : α → EngineM β} {s : Session}
    (h : Refuses x s) : Refuses (x >>= f) s := by
  obtain ⟨text, htext, s', hx, hs'⟩ := h
  exact ⟨text, htext, s', EngineM.bind_error.mpr (.inl hx), hs'⟩

/-- A sequence whose first part returns in an unchanged state refuses with its rest. -/
theorem Refuses.after {α β : Type} {x : EngineM α} {f : α → EngineM β} {s t : Session} {a : α}
    (hx : x s = .ok a t) (ht : t.state = s.state) (h : Refuses (f a) t) : Refuses (x >>= f) s := by
  obtain ⟨text, htext, s', hf, hs'⟩ := h
  exact ⟨text, htext, s', EngineM.bind_error.mpr (.inr ⟨a, t, hx, hf⟩), hs'.trans ht⟩

theorem refuses_raiseIf {c : Prop} [Decidable c] {text : String} (hc : c) (htext : text ∈ refusals)
    (s : Session) : Refuses (raiseIf c (.snmpError text)) s := by
  refine ⟨text, htext, s, ?_, rfl⟩
  unfold raiseIf
  rw [if_pos hc]
  rfl

/-- A reply inside the window passes, and the state stays as it is. -/
theorem checkTimeWindow_run {s : Session} {m : ParsedMessage} (h : InWindow net e s m) :
    ∃ s', checkTimeWindow net e m s = .ok () s' ∧ s'.state = s.state := by
  unfold checkTimeWindow
  by_cases hauth : e.useAuth = true
  · have hwindow := h hauth
    have hstale : ¬ m.boots < s.state.boots := by
      intro hlt
      rcases hwindow with hlater | ⟨hsame, -⟩
      · omega
      · omega
    simp only [EngineM.onlyIf_ok, EngineM.bind_ok, EngineM.state_ok, hauth, true_and, not_true,
      false_and, or_false]
    by_cases hsame : m.boots = s.state.boots
    · obtain ⟨reads, htime⟩ := currentTime_run net s
      have hclose : ¬ TIME_WINDOW_SECONDS < (m.engineTime - estimate net s).natAbs := by
        rcases hwindow with hlater | ⟨-, hclose⟩
        · omega
        · omega
      exact ⟨{ s with reads := reads }, ⟨_, s, ⟨rfl, rfl⟩, _, s, raiseIf_run hstale _ s,
        .inl ⟨hsame, _, _, htime, raiseIf_run hclose _ _⟩⟩, rfl⟩
    · exact ⟨s, ⟨_, s, ⟨rfl, rfl⟩, _, s, raiseIf_run hstale _ s, .inr ⟨hsame, rfl⟩⟩, rfl⟩
  · exact ⟨s, EngineM.onlyIf_ok.mpr (.inr ⟨hauth, rfl⟩), rfl⟩

theorem checkTimeWindow_refuses {s : Session} {m : ParsedMessage} (h : ¬ InWindow net e s m) :
    Refuses (checkTimeWindow net e m) s := by
  unfold InWindow at h
  push Not at h
  obtain ⟨hauth, hlater, hfar⟩ := h
  unfold checkTimeWindow onlyIf
  rw [if_pos hauth]
  apply Refuses.after (state_run s) rfl
  by_cases hstale : m.boots < s.state.boots
  · exact (refuses_raiseIf hstale (by simp [refusals]) s).bind
  · apply Refuses.after (raiseIf_run hstale _ s) rfl
    have hsame : m.boots = s.state.boots := by omega
    rw [if_pos hsame]
    obtain ⟨reads, htime⟩ := currentTime_run net s
    apply Refuses.after htime rfl
    exact refuses_raiseIf (hfar hsame) (by simp [refusals]) _

theorem advanceClock_run (net : Network) (m : ParsedMessage) (s : Session) :
    ∃ now s', advanceClock net m s = .ok () s' ∧ s'.state = s.state.adopt m now := by
  unfold advanceClock
  simp only [EngineM.bind_ok, EngineM.state_ok, EngineM.onlyIf_ok]
  unfold EngineState.adopt
  by_cases hlater : Later s.state m
  · refine ⟨net.clock s.reads, _, ⟨_, s, ⟨rfl, rfl⟩, .inl ⟨hlater, _, _, rfl, rfl⟩⟩, ?_⟩
    rw [if_pos hlater]
  · refine ⟨0, s, ⟨_, s, ⟨rfl, rfl⟩, .inr ⟨hlater, rfl⟩⟩, ?_⟩
    rw [if_neg hlater]

theorem checkErrorStatus_final (m : ParsedMessage) (s : Session) :
    (final (checkErrorStatus m) s).state = s.state := by
  have hkeeps : Keeps (fun t => t.state = s.state) (checkErrorStatus m) := by
    unfold checkErrorStatus
    generalize str m.errorStatus = status
    generalize str m.errorIndex = errorIndex
    exact keeps_onlyIf fun _ => keeps_bind (keeps_of status) fun _ =>
      keeps_bind (keeps_of errorIndex) fun _ => keeps_throw _
  exact hkeeps.final rfl

variable {P}

/-! ## One exchange -/

theorem acceptReply_refuses {s : Session} {reqId : Nat} {reply : Bytes} {m : ParsedMessage}
    (hd : decodeReply P e s.state reply = .ok m) (h : ¬ Trusted net e s reqId m) :
    Refuses (acceptReply P net e reqId reply) s := by
  unfold acceptReply
  apply Refuses.after (state_run s) rfl
  apply Refuses.after (of_run hd s) rfl
  by_cases hid : m.requestId ≠ reqId
  · exact (refuses_raiseIf hid (by simp [refusals]) s).bind
  · apply Refuses.after (raiseIf_run hid _ s) rfl
    by_cases hengine : m.engineId ≠ [] ∧ m.engineId ≠ s.state.engineId
    · exact (refuses_raiseIf hengine (by simp [refusals]) s).bind
    · apply Refuses.after (raiseIf_run hengine _ s) rfl
      apply Refuses.bind
      apply checkTimeWindow_refuses
      intro hwindow
      exact h ⟨not_not.mp hid, by tauto, hwindow⟩

theorem acceptReply_trusted {s : Session} {reqId : Nat} {reply : Bytes} {m : ParsedMessage}
    (hd : decodeReply P e s.state reply = .ok m) (h : Trusted net e s reqId m) :
    ∃ now, (final (acceptReply P net e reqId reply) s).state = s.state.adopt m now := by
  have hid : ¬ m.requestId ≠ reqId := not_not.mpr h.requestId
  have hengine : ¬ (m.engineId ≠ [] ∧ m.engineId ≠ s.state.engineId) := by
    have := h.engineId
    tauto
  obtain ⟨s₁, hwindow, hs₁⟩ := checkTimeWindow_run h.inWindow
  obtain ⟨now, s₂, hclock, hs₂⟩ := advanceClock_run net m s₁
  refine ⟨now, ?_⟩
  unfold acceptReply
  rw [final_bind_ok (state_run s), final_bind_ok (of_run hd s),
    final_bind_ok (raiseIf_run hid _ s), final_bind_ok (raiseIf_run hengine _ s),
    final_bind_ok hwindow, final_bind_ok hclock, final_bind_inert (fun _ _ => rfl),
    checkErrorStatus_final, hs₂, hs₁]

theorem acceptReply_unreadable {s : Session} {reqId : Nat} {reply : Bytes} {err : PyError}
    (hd : decodeReply P e s.state reply = .error err) :
    final (acceptReply P net e reqId reply) s = s := by
  have hof : of (decodeReply P e s.state reply) s = .error err s := by
    rw [hd]
    rfl
  unfold acceptReply
  rw [final_bind_ok (state_run s), final_bind_error hof]

/-- Building and sending a request leaves the clock and the keys alone. -/
theorem requestReply_keeps (st : EngineState) (hst : st.discovered = true) (pduTag : UInt8)
    (oids : List String) :
    Keeps (fun s => SameClock st s.state) (requestReply P net e pduTag oids) := by
  have hdiscover : Keeps (fun s => SameClock st s.state) (discover P net e) := by
    intro s hs
    have hdone : s.state.discovered = true := hs.discovered.trans hst
    rw [discover_eq, ends_bind, ends_of_ok (state_run s)]
    have hnot : ¬ s.state.discovered = false := by
      rw [hdone]
      decide
    unfold onlyIf
    rw [if_neg hnot]
    exact hs
  rw [requestReply_eq]
  refine keeps_bind hdiscover fun _ => ?_
  apply keeps_request P net e
  · intro st' id hs
    exact ⟨hs.1, hs.2, hs.3, hs.4, hs.5, hs.6, hs.7⟩
  · intro st' id hs
    exact ⟨hs.1, hs.2, hs.3, hs.4, hs.5, hs.6, hs.7⟩

variable (P net e)

/-- What one exchange does to the clock: it moves forward, it moves only for a trusted
reply, and a reply that can be read and is not trusted is refused without a trace. -/
structure Guarded (pduTag : UInt8) (oids : List String) (s : Session) : Prop where
  forward :
    s.state.deviceClock ≤ (final (exchange P net e pduTag oids) s).state.deviceClock
  device : (final (exchange P net e pduTag oids) s).state.engineId = s.state.engineId
  authKey : (final (exchange P net e pduTag oids) s).state.localizedAuth = s.state.localizedAuth
  privKey : (final (exchange P net e pduTag oids) s).state.localizedPriv = s.state.localizedPriv
  discovered : (final (exchange P net e pduTag oids) s).state.discovered = s.state.discovered
  changes : SameClock s.state (final (exchange P net e pduTag oids) s).state ∨
    ∃ reqId reply t m, requestReply P net e pduTag oids s = .ok (reqId, reply) t ∧
      SameClock s.state t.state ∧ decodeReply P e t.state reply = .ok m ∧
      Trusted net e t reqId m ∧
      (final (exchange P net e pduTag oids) s).state.deviceClock = toLex (m.boots, m.engineTime)
  refused : ∀ reqId reply t m, requestReply P net e pduTag oids s = .ok (reqId, reply) t →
    decodeReply P e t.state reply = .ok m → ¬ Trusted net e t reqId m →
      SameClock s.state (final (exchange P net e pduTag oids) s).state ∧
        ∃ text ∈ refusals, ∃ s', exchange P net e pduTag oids s = .error (.snmpError text) s'

variable {P net e}

theorem Guarded.of_sameClock {pduTag : UInt8} {oids : List String} {s : Session}
    (h : SameClock s.state (final (exchange P net e pduTag oids) s).state)
    (hrefused : ∀ reqId reply t m, requestReply P net e pduTag oids s = .ok (reqId, reply) t →
      decodeReply P e t.state reply = .ok m → ¬ Trusted net e t reqId m →
        ∃ text ∈ refusals, ∃ s', exchange P net e pduTag oids s = .error (.snmpError text) s') :
    Guarded P net e pduTag oids s where
  forward := by
    unfold EngineState.deviceClock
    rw [h.boots, h.engineTime]
  device := h.engineId
  authKey := h.localizedAuth
  privKey := h.localizedPriv
  discovered := h.discovered
  changes := .inl h
  refused := fun reqId reply t m hr hd hnot => ⟨h, hrefused reqId reply t m hr hd hnot⟩

theorem adopt_sameClock {st : EngineState} {m : ParsedMessage} (h : ¬ Later st m) (now : Rat) :
    st.adopt m now = st := by
  unfold EngineState.adopt
  rw [if_neg h]

theorem reply_unique {pduTag : UInt8} {oids : List String} {s t t' : Session} {reqId reqId' : Nat}
    {reply reply' : Bytes} {m m' : ParsedMessage}
    (hr : requestReply P net e pduTag oids s = .ok (reqId, reply) t)
    (hr' : requestReply P net e pduTag oids s = .ok (reqId', reply') t')
    (hd : decodeReply P e t.state reply = .ok m) (hd' : decodeReply P e t'.state reply' = .ok m') :
    reqId' = reqId ∧ t' = t ∧ m' = m := by
  rw [hr] at hr'
  cases hr'
  rw [hd] at hd'
  cases hd'
  exact ⟨rfl, rfl, rfl⟩

section

variable {pduTag : UInt8} {oids : List String} {s t : Session} {reqId : Nat} {reply : Bytes}
  {m : ParsedMessage}

theorem final_exchange (hr : requestReply P net e pduTag oids s = .ok (reqId, reply) t) :
    final (exchange P net e pduTag oids) s = final (acceptReply P net e reqId reply) t := by
  unfold exchange
  rw [final_bind_ok hr]

/-- A trusted reply is taken over when its clock is later. -/
theorem guarded_of_trusted (hr : requestReply P net e pduTag oids s = .ok (reqId, reply) t)
    (hsame : SameClock s.state t.state) (hd : decodeReply P e t.state reply = .ok m)
    (htrusted : Trusted net e t reqId m) : Guarded P net e pduTag oids s := by
  have hnever : ∀ reqId' reply' t' m',
      requestReply P net e pduTag oids s = .ok (reqId', reply') t' →
      decodeReply P e t'.state reply' = .ok m' → Trusted net e t' reqId' m' := by
    intro reqId' reply' t' m' hr' hd'
    obtain ⟨rfl, rfl, rfl⟩ := reply_unique hr hr' hd hd'
    exact htrusted
  obtain ⟨now, hadopt⟩ := acceptReply_trusted (P := P) hd htrusted
  rw [← final_exchange hr] at hadopt
  by_cases hlater : Later t.state m
  · have hstate : (final (exchange P net e pduTag oids) s).state =
        { t.state with
          boots := m.boots
          engineTime := m.engineTime
          ref := some now } := by
      rw [hadopt, EngineState.adopt, if_pos hlater]
    have hclock : (final (exchange P net e pduTag oids) s).state.deviceClock =
        toLex (m.boots, m.engineTime) := by
      rw [hstate]
      rfl
    have hforward := deviceClock_le_adopt t.state m now
    rw [← hadopt] at hforward
    refine ⟨?_, ?_, ?_, ?_, ?_, .inr ⟨reqId, reply, t, m, hr, hsame, hd, htrusted, hclock⟩, ?_⟩
    · unfold EngineState.deviceClock at hforward ⊢
      rw [hsame.boots, hsame.engineTime] at hforward
      exact hforward
    · rw [hstate]
      exact hsame.engineId
    · rw [hstate]
      exact hsame.localizedAuth
    · rw [hstate]
      exact hsame.localizedPriv
    · rw [hstate]
      exact hsame.discovered
    · intro reqId' reply' t' m' hr' hd' hnot
      exact absurd (hnever reqId' reply' t' m' hr' hd') hnot
  · rw [adopt_sameClock hlater] at hadopt
    apply Guarded.of_sameClock
    · rw [hadopt]
      exact hsame
    · intro reqId' reply' t' m' hr' hd' hnot
      exact absurd (hnever reqId' reply' t' m' hr' hd') hnot

theorem guarded_of_refused (hr : requestReply P net e pduTag oids s = .ok (reqId, reply) t)
    (hsame : SameClock s.state t.state) (hd : decodeReply P e t.state reply = .ok m)
    (hnot : ¬ Trusted net e t reqId m) : Guarded P net e pduTag oids s := by
  obtain ⟨text, htext, s', haccept, hs'⟩ := acceptReply_refuses (P := P) hd hnot
  have hrun : exchange P net e pduTag oids s = .error (.snmpError text) s' := by
    unfold exchange
    exact EngineM.bind_error.mpr (.inr ⟨_, t, hr, haccept⟩)
  apply Guarded.of_sameClock
  · rw [final_of_error hrun, hs']
    exact hsame
  · intro _ _ _ _ _ _ _
    exact ⟨text, htext, s', hrun⟩

theorem guarded_of_unreadable {err : PyError}
    (hr : requestReply P net e pduTag oids s = .ok (reqId, reply) t)
    (hsame : SameClock s.state t.state) (hd : decodeReply P e t.state reply = .error err) :
    Guarded P net e pduTag oids s := by
  apply Guarded.of_sameClock
  · rw [final_exchange hr, acceptReply_unreadable hd]
    exact hsame
  · intro reqId' reply' t' m hr' hd'
    rw [hr] at hr'
    cases hr'
    rw [hd] at hd'
    cases hd'

theorem guarded_of_unanswered {err : PyError}
    (hr : requestReply P net e pduTag oids s = .error err t) (hsame : SameClock s.state t.state) :
    Guarded P net e pduTag oids s := by
  have hfinal : final (exchange P net e pduTag oids) s = t := by
    unfold exchange
    exact final_bind_error hr
  apply Guarded.of_sameClock
  · rw [hfinal]
    exact hsame
  · intro reqId reply t' m hr'
    rw [hr] at hr'
    cases hr'

end

theorem exchange_guarded {s : Session} (hs : s.state.discovered = true) (pduTag : UInt8)
    (oids : List String) : Guarded P net e pduTag oids s := by
  have hkeeps : Keeps (fun t => SameClock s.state t.state) (requestReply P net e pduTag oids) :=
    requestReply_keeps s.state hs pduTag oids
  cases hr : requestReply P net e pduTag oids s with
  | error err t => exact guarded_of_unanswered hr (hkeeps.of_error (SameClock.refl _) hr)
  | ok result t =>
      have hsame : SameClock s.state t.state := hkeeps.of_ok (SameClock.refl _) hr
      cases hd : decodeReply P e t.state result.2 with
      | error err => exact guarded_of_unreadable hr hsame hd
      | ok m =>
          by_cases htrusted : Trusted net e t result.1 m
          · exact guarded_of_trusted hr hsame hd htrusted
          · exact guarded_of_refused hr hsame hd htrusted

/-! ## Runs -/

variable (P net e)

/-- One session leads to another by exchanges, however each of them ends. -/
def Exchanges : Session → Session → Prop :=
  Relation.ReflTransGen fun s t => ∃ pduTag oids, t = final (exchange P net e pduTag oids) s

def runCalls (calls : List Call) (s : Session) : Session :=
  calls.foldl (fun t c => final (perform P net e c) t) s

variable {P net e}

theorem Exchanges.one (pduTag : UInt8) (oids : List String) (s : Session) :
    Exchanges P net e s (final (exchange P net e pduTag oids) s) :=
  .single ⟨pduTag, oids, rfl⟩

theorem final_getnext (oid : String) (s : Session) :
    final (getnext P net e oid) s = final (exchange P net e GET_NEXT_REQUEST [oid]) s := by
  unfold getnext
  apply final_bind_inert
  intro m s'
  cases m.varbinds with
  | nil => rfl
  | cons varbind rest => rfl

theorem exchanges_walkFrom (columnPrefix : String) (left : Nat) (current : String)
    (out : List (String × SnmpValue)) (s : Session) :
    Exchanges P net e s (final (walkFrom P net e columnPrefix left current out) s) := by
  induction left generalizing current out s with
  | zero => exact .refl
  | succ left ih =>
      have hone : Exchanges P net e s (final (exchange P net e GET_NEXT_REQUEST [current]) s) :=
        Exchanges.one _ _ _
      rw [← final_getnext] at hone
      unfold walkFrom
      cases hnext : getnext P net e current s with
      | error err s' =>
          rw [final_of_error hnext] at hone
          rw [final_bind_error hnext]
          exact hone
      | ok varbind s' =>
          obtain ⟨oid, value⟩ := varbind
          rw [final_of_ok hnext] at hone
          rw [final_bind_ok hnext]
          by_cases hstop : value = .str "endOfMibView" ∨
              ¬ columnPrefix.toList.isPrefixOf oid.toList ∨ oid = current
          · simp only [hstop, if_true]
            exact hone
          · simp only [hstop, if_false]
            exact hone.trans (ih _ _ _)

theorem exchanges_perform (c : Call) (s : Session) :
    Exchanges P net e s (final (perform P net e c) s) := by
  cases c with
  | get oid =>
      have hget : final (get P net e oid) s = final (exchange P net e GET_REQUEST [oid]) s := by
        unfold get
        apply final_bind_inert
        intro m s'
        cases m.varbinds with
        | nil => rfl
        | cons varbind rest => rfl
      unfold perform
      rw [final_bind_inert (fun _ _ => rfl), hget]
      exact Exchanges.one _ _ _
  | getnext oid =>
      unfold perform
      rw [final_bind_inert (fun _ _ => rfl), final_getnext]
      exact Exchanges.one _ _ _
  | walk baseOid maxOids =>
      unfold perform walk
      rw [final_bind_inert (fun _ _ => rfl), final_bind_inert]
      · exact exchanges_walkFrom _ _ _ _ _
      · intro rows s'
        cases rows with
        | none => rfl
        | some out => rfl

theorem exchanges_runCalls (calls : List Call) (s : Session) :
    Exchanges P net e s (runCalls P net e calls s) := by
  induction calls generalizing s with
  | nil => exact .refl
  | cons c rest ih => exact (exchanges_perform c s).trans (ih _)

/-- Exchanges never forget the device, and its clock never goes back. -/
theorem Exchanges.forward {s t : Session} (h : Exchanges P net e s t)
    (hs : s.state.discovered = true) :
    t.state.discovered = true ∧ s.state.deviceClock ≤ t.state.deviceClock := by
  induction h with
  | refl => exact ⟨hs, le_rfl⟩
  | tail _ step ih =>
      obtain ⟨pduTag, oids, rfl⟩ := step
      have hguarded : Guarded P net e pduTag oids _ := exchange_guarded ih.1 pduTag oids
      exact ⟨hguarded.discovered.trans ih.1, ih.2.trans hguarded.forward⟩

end

/-- After discovery, a run of calls is a run of exchanges that moves the device's clock
forward, and each exchange in it is guarded. -/
theorem calls_guard_clock (P : Primitives) (net : Network) (e : SnmpV3Engine) (s : Session)
    (hs : s.state.discovered = true) (calls : List Call) :
    s.state.deviceClock ≤ (runCalls P net e calls s).state.deviceClock ∧
      Exchanges P net e s (runCalls P net e calls s) ∧
      ∀ t, Exchanges P net e s t → ∀ pduTag oids, Guarded P net e pduTag oids t := by
  have hrun : Exchanges P net e s (runCalls P net e calls s) := exchanges_runCalls calls s
  refine ⟨(hrun.forward hs).2, hrun, ?_⟩
  intro t ht pduTag oids
  exact exchange_guarded (ht.forward hs).1 pduTag oids

/-- A discovered device is asked for its description. -/
theorem calls_guard_clock_response :
    Sample.session.state.deviceClock ≤
      (runCalls Sample.primitives (Sample.network Sample.signed) (Sample.engine .authNoPriv)
        [.get SYS_DESCR] Sample.session).state.deviceClock :=
  (calls_guard_clock Sample.primitives (Sample.network Sample.signed) (Sample.engine .authNoPriv)
    Sample.session rfl [.get SYS_DESCR]).1

end NetForge.Ingest.Snmp
