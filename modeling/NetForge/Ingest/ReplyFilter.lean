import NetForge.Ingest.Calls
import Mathlib.Tactic.Linarith

/-! # Filtering replies

`_send_recv` as a run of attempts. An attempt is determined by the clock reading that fixes its
deadline and by the number of its waits: datagrams that do not match take up waits, each for
what is then left, and nothing else.
-/

namespace NetForge.Ingest.Snmp

open Python Asn1 EngineM Calculus

/-- One attempt: the number of the clock reading right after its send, and of its waits. -/
structure Attempt where
  reading : Nat
  waits : Nat

section

variable (net : Network) (e : SnmpV3Engine)

def waitCalls (deadline : Rat) (first count : Nat) : List SocketCall :=
  (List.range count).flatMap fun i => [.settimeout (deadline - net.clock (first + i)), .recvfrom]

namespace Attempt

variable (a : Attempt)

def deadline : Rat := net.clock a.reading + e.timeout

/-- What is left at a wait; the clock is read anew before each one. -/
def remaining (i : Nat) : Rat := a.deadline net e - net.clock (a.reading + 1 + i)

/-- The calls on the attempt's socket: each wait is given what is left. -/
def calls (message : Bytes) : List SocketCall :=
  [.opened, .settimeout e.timeout, .sendto message] ++
    waitCalls net (a.deadline net e) (a.reading + 1) a.waits ++ [.closed]

end Attempt

/-! ## One attempt -/

/-- The delivery is a datagram whose header does not carry the id, or has none. -/
def Foreign (id : Int) (d : Delivery) : Prop :=
  ∃ data, d = .datagram data ∧ peekMsgId (data.take MAX_MESSAGE_SIZE) ≠ .ok id

/-- The reply is the first datagram delivered that carries the id. -/
def FirstMatch (id : Int) (deliveries : List Delivery) (reply : Bytes) : Prop :=
  ∃ skipped raw rest, deliveries = skipped ++ .datagram raw :: rest ∧
    reply = raw.take MAX_MESSAGE_SIZE ∧ peekMsgId reply = .ok id ∧ ∀ d ∈ skipped, Foreign id d

theorem FirstMatch.cons {id : Int} {d : Delivery} {deliveries : List Delivery} {reply : Bytes}
    (hd : Foreign id d) (h : FirstMatch id deliveries reply) :
    FirstMatch id (d :: deliveries) reply := by
  obtain ⟨skipped, raw, rest, rfl, hreply, hpeek, hskipped⟩ := h
  exact ⟨d :: skipped, raw, rest, rfl, hreply, hpeek, List.forall_mem_cons.mpr ⟨hd, hskipped⟩⟩

theorem waitCalls_succ (deadline : Rat) (first count : Nat) :
    waitCalls net deadline first (count + 1) =
      [.settimeout (deadline - net.clock first), .recvfrom] ++
        waitCalls net deadline (first + 1) count := by
  unfold waitCalls
  rw [List.range_succ_eq_map, List.flatMap_cons, List.flatMap_map]
  congr 1
  apply List.flatMap_congr
  intro i _
  rw [Nat.succ_eq_add_one, Nat.add_right_comm, Nat.add_assoc]

theorem await_run {deadline : Rat} {s : Session} (hfits : LeftFits net deadline s.reads)
    (next : EngineM (Except String Bytes)) :
    await net deadline next s =
      if deadline - net.clock s.reads ≤ 0 then
        .ok (.error "no reply matched the outstanding msgID") { s with reads := s.reads + 1 }
      else
        next { s with
          reads := s.reads + 1
          calls := s.calls ++ [.settimeout (deadline - net.clock s.reads), .recvfrom] } := by
  unfold await
  rw [bind_run_ok (monotonic_run net s)]
  by_cases h : deadline - net.clock s.reads ≤ 0
  · rw [if_pos h, if_pos h]
    rfl
  · rw [if_neg h, if_neg h, bind_run_ok (settimeout_run (hfits.fits h) _),
      bind_run_ok (call_run _ _)]
    simp only [List.append_assoc, List.singleton_append]

/-- What the receive loop leaves: waits up to the deadline, and the first match if any. -/
structure Received (deadline : Rat) (id : Int) (deliveries : List Delivery) (s : Session)
    (result : Except String Bytes) (s' : Session) (count : Nat) : Prop where
  calls : s'.calls = s.calls ++ waitCalls net deadline s.reads count
  reads : s.reads + count ≤ s'.reads
  positive : ∀ i < count, 0 < deadline - net.clock (s.reads + i)
  first : ∀ data, result = .ok data → FirstMatch id deliveries data

variable {net}

theorem Received.wait {deadline : Rat} {id : Int} {d : Delivery} {deliveries : List Delivery}
    {s s' : Session} {result : Except String Bytes} {count : Nat}
    (hpos : 0 < deadline - net.clock s.reads)
    (h : Received net deadline id deliveries { s with
      reads := s.reads + 1
      calls := s.calls ++ [.settimeout (deadline - net.clock s.reads), .recvfrom] } result s' count)
    (hd : Foreign id d) : Received net deadline id (d :: deliveries) s result s' (count + 1) where
  calls := by
    rw [h.calls, waitCalls_succ, List.append_assoc]
  reads := by
    have hreads := h.reads
    simp only at hreads
    omega
  positive := by
    intro i hi
    cases i with
    | zero => exact hpos
    | succ i =>
        have hrest := h.positive i (by omega)
        simp only at hrest
        rwa [Nat.add_right_comm, Nat.add_assoc] at hrest
  first := fun data hdata => (h.first data hdata).cons hd

theorem Received.last {deadline : Rat} {id : Int} {deliveries : List Delivery} {s : Session}
    {result : Except String Bytes} (hpos : 0 < deadline - net.clock s.reads)
    (h : ∀ data, result = .ok data → FirstMatch id deliveries data) :
    Received net deadline id deliveries s result { s with
      reads := s.reads + 1
      calls := s.calls ++ [.settimeout (deadline - net.clock s.reads), .recvfrom] } 1 where
  calls := by
    rw [waitCalls_succ]
    rfl
  reads := le_rfl
  positive := by
    intro i hi
    obtain rfl : i = 0 := by omega
    exact hpos
  first := h

/-- The loop is left without a wait when no time is left. -/
theorem Received.expired {deadline : Rat} {id : Int} {deliveries : List Delivery} {s : Session}
    {text : String} :
    Received net deadline id deliveries s (.error text) { s with reads := s.reads + 1 } 0 where
  calls := (List.append_nil _).symm
  reads := Nat.le_succ _
  positive := by
    intro i hi
    omega
  first := by
    intro data hdata
    cases hdata

/-- A wait is left at once when no time is left; otherwise the rest of the loop decides. -/
theorem await_spec {deadline : Rat} {id : Int} {deliveries : List Delivery} {s : Session}
    {next : EngineM (Except String Bytes)} (hfits : LeftFits net deadline s.reads)
    (hnext : 0 < deadline - net.clock s.reads → ∃ result s' count,
      next { s with
          reads := s.reads + 1
          calls := s.calls ++ [.settimeout (deadline - net.clock s.reads), .recvfrom] } =
        .ok result s' ∧ Received net deadline id deliveries s result s' count) :
    ∃ result s' count, await net deadline next s = .ok result s' ∧
      Received net deadline id deliveries s result s' count := by
  rw [await_run net hfits]
  by_cases hleft : deadline - net.clock s.reads ≤ 0
  · rw [if_pos hleft]
    exact ⟨_, _, 0, rfl, .expired⟩
  · rw [if_neg hleft]
    exact hnext (not_le.mp hleft)

theorem receive_spec {deadline : Rat} {s : Session} (hfits : LeftFits net deadline s.reads)
    (id : Int) (deliveries : List Delivery) :
    ∃ result s' count, receive net id deadline deliveries s = .ok result s' ∧
      Received net deadline id deliveries s result s' count := by
  induction deliveries generalizing s with
  | nil =>
      unfold receive
      apply await_spec hfits
      intro hpos
      refine ⟨.error "timed out", _, 1, rfl, .last hpos ?_⟩
      intro data hdata
      cases hdata
  | cons delivery rest ih =>
      cases delivery with
      | error text =>
          unfold receive
          apply await_spec hfits
          intro hpos
          refine ⟨.error text, _, 1, rfl, .last hpos ?_⟩
          intro data hdata
          cases hdata
      | datagram data =>
          unfold receive
          apply await_spec hfits
          intro hpos
          have hrest := @ih { s with
            reads := s.reads + 1
            calls := s.calls ++ [.settimeout (deadline - net.clock s.reads), .recvfrom] }
            (hfits.later (Nat.le_succ _))
          cases hpeek : peekMsgId (data.take MAX_MESSAGE_SIZE) with
          | ok found =>
              simp only
              by_cases hid : found = id
              · rw [if_pos hid]
                refine ⟨.ok (data.take MAX_MESSAGE_SIZE), _, 1, rfl, .last hpos ?_⟩
                intro reply hreply
                cases hreply
                rw [hid] at hpeek
                exact ⟨[], data, rest, rfl, rfl, hpeek, by simp⟩
              · rw [if_neg hid]
                have hforeign : Foreign id (.datagram data) := by
                  refine ⟨data, rfl, fun hmatch => hid ?_⟩
                  rw [hpeek] at hmatch
                  exact Except.ok.inj hmatch
                obtain ⟨result, s', count, hrun, hspec⟩ := hrest
                exact ⟨result, s', count + 1, hrun, hspec.wait hpos hforeign⟩
          | error err =>
              have hcaught := (raises_peekMsgId _ err hpeek).isPeekError
              simp only [hcaught, if_true]
              have hforeign : Foreign id (.datagram data) := by
                refine ⟨data, rfl, fun hmatch => ?_⟩
                rw [hpeek] at hmatch
                cases hmatch
              obtain ⟨result, s', count, hrun, hspec⟩ := hrest
              exact ⟨result, s', count + 1, hrun, hspec.wait hpos hforeign⟩

variable (net)

structure Attempt.Runs (message : Bytes) (id : Int) (s : Session) (a : Attempt)
    (result : Except String Bytes) (s' : Session) : Prop where
  calls : s'.calls = s.calls ++ a.calls net e message
  reading : a.reading = s.reads
  reads : a.reading + a.waits ≤ s'.reads
  positive : ∀ i < a.waits, 0 < a.remaining net e i
  first : ∀ data, result = .ok data → ∃ deliveries,
    net.deliver (s.sent ++ [message]) = .ok deliveries ∧ FirstMatch id deliveries data

theorem sent_append (s : Session) (calls : List SocketCall) :
    Session.sent { s with calls := s.calls ++ calls } =
      s.sent ++ calls.filterMap SocketCall.message? := List.filterMap_append

variable {e}

def sending (timeout : Rat) (message : Bytes) (s : Session) : Session :=
  { s with calls := s.calls ++ [.opened] ++ [.settimeout timeout] ++ [.sendto message] }

section

variable (hclock : Monotone net.clock) {s : Session} (h : Attemptable net e s.sent.length)
  (id : Int) (message : Bytes)

include h

theorem attempt_eq :
    attempt net e message id { s with calls := s.calls ++ [.opened] } =
      match net.answer s.sent message with
      | .error text => .ok (.error text) (sending e.timeout message s)
      | .ok deliveries => receive net id (net.clock s.reads + e.timeout) deliveries
          { sending e.timeout message s with reads := s.reads + 1 } := by
  have hopened : Session.sent { s with calls := s.calls ++ [.opened] } = s.sent := by
    rw [sent_append]
    exact List.append_nil _
  have hset : Session.sent { s with
      calls := s.calls ++ [.opened] ++ [.settimeout e.timeout] } = s.sent := by
    rw [List.append_assoc, sent_append]
    exact List.append_nil _
  have hattempt : Attemptable net e (Session.sent { s with
      calls := s.calls ++ [.opened] ++ [.settimeout e.timeout] }).length := by
    rwa [hset]
  unfold attempt
  rw [bind_run_ok (settimeout_run h.timeout _), bind_run_ok (hattempt.sendto_run message), hset]
  cases net.answer s.sent message with
  | error text => rfl
  | ok deliveries =>
      simp only
      rw [bind_run_ok (monotonic_run net _)]
      rfl

include hclock

theorem attempt_runs :
    ∃ a result s', thenClose (attempt net e message id) { s with
        calls := s.calls ++ [.opened] } = .ok result s' ∧
      Attempt.Runs net e message id s a result s' := by
  have hattempt := attempt_eq net h id message
  cases hanswer : net.answer s.sent message with
  | error text =>
      rw [hanswer] at hattempt
      refine ⟨⟨s.reads, 0⟩, .error text, _, thenClose_ok hattempt, ?_⟩
      exact {
        calls := by simp only [sending, Attempt.calls, waitCalls, List.range_zero,
          List.flatMap_nil, List.append_assoc, List.cons_append, List.nil_append]
        reading := rfl
        reads := le_rfl
        positive := fun i hi => absurd hi (Nat.not_lt_zero i)
        first := fun data hdata => by cases hdata }
  | ok deliveries =>
      rw [hanswer] at hattempt
      have hdeliver : net.deliver (s.sent ++ [message]) = .ok deliveries := by
        unfold Network.answer at hanswer
        cases hlookup : net.lookup s.sent.length with
        | some text =>
            rw [hlookup] at hanswer
            cases hanswer
        | none =>
            rw [hlookup] at hanswer
            exact hanswer
      have hfits : LeftFits net (net.clock s.reads + e.timeout)
          (Session.reads { sending e.timeout message s with reads := s.reads + 1 }) :=
        (h.leftFits hclock s.reads).later (Nat.le_succ _)
      obtain ⟨result, s', count, hrun, hspec⟩ := receive_spec hfits id deliveries
      have hreads := hspec.reads
      simp only at hreads
      refine ⟨⟨s.reads, count⟩, result, _, thenClose_ok (hattempt.trans hrun), ?_⟩
      exact {
        calls := by
          simp only [hspec.calls, sending, Attempt.calls, Attempt.deadline, List.append_assoc,
            List.cons_append, List.nil_append]
        reading := rfl
        reads := by
          simp only
          omega
        positive := hspec.positive
        first := fun data hdata => ⟨deliveries, hdeliver, hspec.first data hdata⟩ }

end

/-! ## All attempts -/

variable (e)

structure AttemptsRun (message : Bytes) (s : Session) (made : List Attempt) (s' : Session) :
    Prop where
  calls : s'.calls = s.calls ++ made.flatMap fun a => a.calls net e message
  after : ∀ a ∈ made, s.reads ≤ a.reading
  ordered : made.Pairwise fun a b => a.reading + a.waits ≤ b.reading
  positive : ∀ a ∈ made, ∀ i < a.waits, 0 < a.remaining net e i

variable {net e}

theorem AttemptsRun.nil (message : Bytes) (s : Session) : AttemptsRun net e message s [] s where
  calls := (List.append_nil _).symm
  after := fun _ ha => absurd ha List.not_mem_nil
  ordered := .nil
  positive := fun _ ha => absurd ha List.not_mem_nil

theorem Attempt.Runs.cons {message : Bytes} {id : Int} {s s₁ s' : Session} {a : Attempt}
    {result : Except String Bytes} {made : List Attempt}
    (ha : Attempt.Runs net e message id s a result s₁) (h : AttemptsRun net e message s₁ made s') :
    AttemptsRun net e message s (a :: made) s' where
  calls := by
    rw [h.calls, ha.calls, List.flatMap_cons, List.append_assoc]
  after := by
    have hreading := ha.reading
    have hreads := ha.reads
    intro b hb
    cases hb with
    | head => omega
    | tail _ hb =>
        have hafter := h.after b hb
        omega
  ordered := by
    apply List.Pairwise.cons _ h.ordered
    intro b hb
    exact ha.reads.trans (h.after b hb)
  positive := by
    intro b hb
    cases hb with
    | head => exact ha.positive
    | tail _ hb => exact h.positive b hb

theorem Attempt.calls_messages (a : Attempt) (message : Bytes) :
    (a.calls net e message).filterMap SocketCall.message? = [message] := by
  have hwaits : (waitCalls net (a.deadline net e) (a.reading + 1) a.waits).filterMap
      SocketCall.message? = [] := by
    apply List.filterMap_eq_nil_iff.mpr
    intro c hc
    obtain ⟨i, -, hi⟩ := List.mem_flatMap.mp hc
    simp only [List.mem_cons, List.not_mem_nil, or_false] at hi
    rcases hi with rfl | rfl
    · rfl
    · rfl
  unfold Attempt.calls
  rw [List.filterMap_append, List.filterMap_append, hwaits]
  rfl

theorem Attempt.Runs.sent {message : Bytes} {id : Int} {s s' : Session} {a : Attempt}
    {result : Except String Bytes} (h : Attempt.Runs net e message id s a result s') :
    s'.sent = s.sent ++ [message] := by
  unfold Session.sent
  rw [h.calls, List.filterMap_append, a.calls_messages]

theorem AttemptsRun.sent {message : Bytes} {s s' : Session} {made : List Attempt}
    (h : AttemptsRun net e message s made s') :
    s'.sent = s.sent ++ List.replicate made.length message := by
  unfold Session.sent
  rw [h.calls, List.filterMap_append, List.filterMap_flatMap]
  simp only [Attempt.calls_messages]
  rw [← List.map_eq_flatMap, List.map_const']

def Replied (net : Network) (id : Int) (reply : Bytes) (s : Session) : Prop :=
  ∃ deliveries, net.deliver s.sent = .ok deliveries ∧ FirstMatch id deliveries reply

theorem attempts_run (hclock : Monotone net.clock) {left : Nat} {s : Session}
    (h : Sendable net e left s.sent.length) (message : Bytes) (id : Int) (last : String) :
    ∃ made, made.length ≤ left ∧
      AttemptsRun net e message s made (final (attempts net e message id left last) s) ∧
      Ends (attempts net e message id left last) s (Replied net id) fun err _ =>
        IsSnmpError err := by
  induction left generalizing last s with
  | zero =>
      obtain ⟨port, hport⟩ := str_isOk_iff.mpr (h.printable rfl)
      unfold attempts
      unfold Ends final
      rw [bind_run_ok (of_run hport s)]
      exact ⟨[], le_rfl, .nil message s, trivial⟩
  | succ left ih =>
      obtain ⟨hfirst, hrest⟩ := sendable_succ_iff.mp h
      obtain ⟨a, result, s₁, hrun, ha⟩ := attempt_runs net hclock hfirst id message
      unfold attempts
      unfold Ends final
      rw [bind_run_ok (call_run _ _), bind_run_ok hrun]
      have hsent := ha.sent
      cases result with
      | ok data =>
          refine ⟨[a], Nat.succ_le_succ (Nat.zero_le left), ha.cons (.nil message s₁), ?_⟩
          obtain ⟨deliveries, hdeliver, hmatch⟩ := ha.first data rfl
          rw [← hsent] at hdeliver
          exact ⟨deliveries, hdeliver, hmatch⟩
      | error text =>
          have hnext : Sendable net e left s₁.sent.length := by
            rwa [hsent, List.length_append]
          obtain ⟨made, hlength, hmade, hends⟩ := ih hnext text
          exact ⟨a :: made, Nat.succ_le_succ hlength, ha.cons hmade, hends⟩

/-! ## The whole call -/

variable (net e)

/-- At most `retries + 1` messages are sent, each on a socket of its own that is closed
again, every wait is given what is left of the time after its send, and the call returns
the first reply to the last message that carries the id or raises `SnmpError`. -/
structure Filters (message : Bytes) (id : Int) (s : Session) : Prop where
  attempts : ∃ made, made.length ≤ (e.retries + 1).toNat ∧
    AttemptsRun net e message s made (final (sendRecv net e message id) s) ∧
    (final (sendRecv net e message id) s).sent =
      s.sent ++ List.replicate made.length message ∧
    ∀ a ∈ made, ∀ i < a.waits, a.remaining net e i ≤ e.timeout
  ends : Ends (sendRecv net e message id) s (Replied net id) fun err _ => IsSnmpError err

/-- A wait starts no earlier than the reading that fixed the deadline. -/
theorem Attempt.remaining_le (hclock : Monotone net.clock) (a : Attempt) (i : Nat) :
    a.remaining net e i ≤ e.timeout := by
  have hlater : net.clock a.reading ≤ net.clock (a.reading + 1 + i) := hclock (by omega)
  unfold Attempt.remaining Attempt.deadline
  linarith

theorem Filters.sends (hclock : Monotone net.clock) {message : Bytes} {id : Int} {s : Session}
    (h : Filters net e message id s) : Sends net e s := by
  apply (sendRecv_contained_iff net e hclock).mp
  unfold ContainedAt RaisesAt
  exact h.ends.mono (fun _ _ _ => trivial) fun _ _ herr => herr

/-- What is not contained are the checks that the socket module makes of timeout, host and
port. -/
theorem sendRecv_filters_iff (hclock : Monotone net.clock) (message : Bytes) (id : Int)
    (s : Session) : Filters net e message id s ↔ Sends net e s := by
  constructor
  · exact Filters.sends net e hclock
  · intro hsends
    obtain ⟨made, hlength, hmade, hends⟩ := attempts_run hclock hsends message id "None"
    refine ⟨⟨made, hlength, hmade, hmade.sent, ?_⟩, hends⟩
    intro a _ i _
    exact a.remaining_le net e hclock i

end

namespace Sample

/-- Each reading of the clock is half a second after the one before it; a datagram that is
no message comes before the one that carries the id. -/
def noisy : Network := { network stub with
  clock := fun n => n / 2
  deliver := fun _ => .ok [.datagram [0x30], .datagram stub] }

theorem noisy_monotone : Monotone noisy.clock := by
  intro m n hmn
  have hcast : (m : Rat) ≤ n := Nat.cast_le.mpr hmn
  show (m : Rat) / 2 ≤ n / 2
  linarith

def impatient : SnmpV3Engine := { engine .noAuthNoPriv with timeout := -1 }

end Sample

theorem Sample.engine_sends : Sends Sample.noisy (Sample.engine .noAuthNoPriv) Sample.created where
  attempts := by
    intro i _
    refine ⟨⟨?_, ?_⟩, ?_, ?_, ?_⟩
    · decide +kernel
    · decide +kernel
    · decide
    · decide
    · exact fun _ => ⟨by decide, by decide⟩
  printable := fun h => absurd h (by decide)

theorem sendRecv_filters_iff_second :
    EngineM.returned (sendRecv Sample.noisy (Sample.engine .noAuthNoPriv) [] 1) Sample.created =
        some (Sample.stub, Sample.created.state) ∧
      Filters Sample.noisy (Sample.engine .noAuthNoPriv) [] 1 Sample.created := by
  constructor
  · decide +kernel
  · exact (sendRecv_filters_iff Sample.noisy (Sample.engine .noAuthNoPriv) Sample.noisy_monotone
      [] 1 Sample.created).mpr Sample.engine_sends

theorem negative_timeout_escapes :
    ¬ ∀ (net : Network) (e : SnmpV3Engine) (message : Bytes) (id : Int) (s : Session),
      Monotone net.clock → Filters net e message id s := by
  intro hclaim
  have hfilters := hclaim Sample.noisy Sample.impatient [] 1 Sample.created Sample.noisy_monotone
  have hsends := Filters.sends _ _ Sample.noisy_monotone hfilters
  have htimeout := (hsends.attempts 0 (by decide)).timeout.1
  exact absurd htimeout (by decide +kernel)

end NetForge.Ingest.Snmp
