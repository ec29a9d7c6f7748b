import EspAdblocker.Dns.QueryLog

/-!
# The query log over whole runs

`log_query` is called at four places of the handlers. Read off the record of a
run, its calls are one for each query blocked, refused, forwarded or timed out
whose question can be parsed, and none for a relayed reply. A query that timed
out is parsed again from the reply made of it, and it is logged with the question
of the datagram its slot was taken for.
-/

namespace EspAdblocker.Dns

open EspAdblocker.Lib EspAdblocker.Storage

/-! ## Questions of error responses -/

/-- The flags are no part of the question. -/
theorem dnsWireParseQuestion_errorResponse (msg : List Byte) (code : Byte) :
    dnsWireParseQuestion (dnsWireMakeErrorResponse msg msg.length code) = dnsWireParseQuestion msg := by
  by_cases header : dnsWireHeaderLen ≤ msg.length
  · obtain ⟨question, parsed⟩ := dnsWireParseQuestion_total msg
    obtain ⟨question', parsed'⟩ := dnsWireParseQuestion_total (dnsWireMakeErrorResponse msg msg.length code)
    have same (q : DnsWireQuestion) : question' = some q ↔ question = some q := by
      have accepts : dnsWireParseQuestion (dnsWireMakeErrorResponse msg msg.length code) = .ok (some q) ↔
          dnsWireParseQuestion msg = .ok (some q) := by
        rw [dnsWireParseQuestion_iff, dnsWireParseQuestion_iff]
        obtain ⟨b0, b1, b2, b3, b4, b5, b6, b7, b8, b9, b10, b11, body, rfl⟩ := exists_header header
        rw [dnsWireMakeErrorResponse_cons header]
        simp only [asks_cons_iff]
        exact Iff.rfl
      rw [parsed, parsed', Except.ok.injEq, Except.ok.injEq] at accepts
      exact accepts
    rw [parsed, parsed', Option.ext same]
  · rw [dnsWireMakeErrorResponse, if_pos (Nat.lt_of_not_le header)]

/-- A message without a whole header asks nothing. -/
theorem dnsWireParseQuestion_short {msg : List Byte} (short : msg.length < dnsWireHeaderLen) :
    dnsWireParseQuestion msg = .ok none := by
  rw [dnsWireParseQuestion, if_pos short]

/-- The reply to a query that timed out asks what the client's datagram asked. -/
theorem Holds.parse_timeoutReply {N : Nat} {slot : Fin N} {r : ClientDatagram} {q : PendingQuery} (holds : Holds slot r q) :
    dnsWireParseQuestion ((Dns.timeoutReply q).take q.queryLen) = dnsWireParseQuestion r.data := by
  by_cases long : 2 ≤ r.data.length
  · rw [holds.timeoutReply long, ClientDatagram.servfail, dnsWireParseQuestion_errorResponse]
  · have short : r.data.length < dnsWireHeaderLen := by
      rw [dnsWireHeaderLen]
      omega
    rw [dnsWireParseQuestion_short short, dnsWireParseQuestion_short]
    rw [List.length_take, holds.length]
    exact lt_of_le_of_lt (Nat.min_le_left _ _) short

/-! ## The calls of a run -/

/-- What `log_query` is to record: a datagram and what became of it. `time` is what
the call reads from the timer, `none` when it does not get the mutex. -/
structure LogRequest where
  time : Option Int
  query : ClientDatagram
  result : QueryResult

/-- The call for a datagram that asks a question. -/
def LogRequest.call (request : LogRequest) : Option LogCall :=
  match accepted : dnsWireParseQuestion request.query.data with
  | .ok (some _) => request.time.map fun timeUs => .ofQuestion accepted timeUs request.query.addr request.result
  | _ => none

section

variable {N : Nat}

/-- What is to be recorded of an action, in a turn that may have received a datagram. -/
def Action.request (env : Env) (arrival : Option ClientDatagram) (origins : Fin N → Option ClientDatagram) :
    Action N → Option LogRequest
  | .forward .. => arrival.map (⟨env.logTime 0, ·, .forwarded⟩)
  | .blocked .. => arrival.map (⟨env.logTime 0, ·, .blocked⟩)
  | .refused .. => arrival.map (⟨env.logTime 0, ·, .servfail⟩)
  | .timedOut slot .. => (origins slot).map (⟨env.logTime slot, ·, .servfail⟩)
  | .relayed .. | .failedOver | .reconfigured => none

/-- The calls of a turn. -/
def turnCalls (env : Env) (arrival : Option ClientDatagram) (origins : Fin N → Option ClientDatagram)
    (acts : List (Action N)) : List LogCall :=
  acts.filterMap fun a => (a.request env arrival origins).bind LogRequest.call

/-- The calls of a run, from the datagrams its slots were taken for. -/
def callsFrom (origins : Fin N → Option ClientDatagram) : List (Turn (Env × Input) (Action N)) → List LogCall
  | [] => []
  | t :: later =>
    turnCalls t.1.1 t.1.2.arrival origins t.2 ++ callsFrom (t.2.foldl (takeSlot t.1.2.arrival) origins) later

/-- The calls of `log_query` in a run. -/
def logCalls (past : List (Turn (Env × Input) (Action N))) : List LogCall := callsFrom (fun _ => none) past

theorem callsFrom_append (origins : Fin N → Option ClientDatagram) (past : List (Turn (Env × Input) (Action N)))
    (t : Turn (Env × Input) (Action N)) :
    callsFrom origins (past ++ [t]) = callsFrom origins past ++
      turnCalls t.1.1 t.1.2.arrival (past.foldl (fun origins t => t.2.foldl (takeSlot t.1.2.arrival) origins) origins) t.2 := by
  induction past generalizing origins with
  | nil => exact (List.append_nil _).trans (List.nil_append _).symm
  | cons first past ih =>
    rw [List.cons_append, callsFrom, ih, callsFrom, List.append_assoc]
    rfl

theorem logCalls_append (past : List (Turn (Env × Input) (Action N))) (t : Turn (Env × Input) (Action N)) :
    logCalls (past ++ [t]) = logCalls past ++ turnCalls t.1.1 t.1.2.arrival (origins past) t.2 :=
  callsFrom_append _ past t

/-! ## The calls of a turn -/

/-- Logging what was parsed is the call for the datagram. -/
theorem logQuestion_call {cfg : Kconfig} {p : Proxy N} (request : LogRequest) {question : Option DnsWireQuestion}
    (parsed : dnsWireParseQuestion request.query.data = .ok question) :
    (p.logQuestion cfg request.time request.query.addr question request.result).log =
      request.call.toList.foldl (LogCall.apply cfg) p.log := by
  unfold LogRequest.call
  split
  · rename_i q accepted
    obtain rfl : question = some q := Except.ok.inj (parsed.symm.trans accepted)
    cases time : request.time with
    | none => rfl
    | some timeUs => rfl
  · rename_i none_accepted
    cases question with
    | none => rfl
    | some q => exact absurd parsed (none_accepted q)

/-- The calls of a turn with one action that has a call. -/
theorem turnCalls_single {env : Env} {arrival : Option ClientDatagram} {origins : Fin N → Option ClientDatagram}
    {a : Action N} {request : LogRequest} (requested : a.request env arrival origins = some request) :
    turnCalls env arrival origins [a] = request.call.toList := by
  cases called : request.call with
  | none => simp [turnCalls, requested, called]
  | some call => simp [turnCalls, requested, called]

theorem forwardOrRefuse_log {cfg : Kconfig} {env : Env} {p p' : Proxy N} {r : ClientDatagram} {buf : List Byte} {n : Nat}
    {question : Option DnsWireQuestion} {acts : List (Action N)} (origins : Fin N → Option ClientDatagram)
    (parsed : dnsWireParseQuestion r.data = .ok question)
    (handled : forwardOrRefuse cfg env p r.sock r.addr buf n question = (p', acts)) :
    p'.log = (turnCalls env (some r) origins acts).foldl (LogCall.apply cfg) p.log := by
  rw [forwardOrRefuse] at handled
  split at handled
  · cases handled
    rw [turnCalls_single rfl]
    exact logQuestion_call ⟨env.logTime 0, r, .servfail⟩ parsed
  · cases handled
    rw [turnCalls_single rfl]
    exact logQuestion_call ⟨env.logTime 0, r, .forwarded⟩ parsed

theorem handleClientDatagram_log {cfg : Kconfig} {bs : Bsearch} {env : Env} {p p' : Proxy N} {sock : ListenSock}
    {client : SockAddr} {data : List Byte} {stale : Fin dnsWireMaxMsgLen → Byte} {acts : List (Action N)}
    (origins : Fin N → Option ClientDatagram) (received : data ≠ [])
    (handled : handleClientDatagram cfg bs env p sock client data stale = .ok (p', acts)) :
    p'.log = (turnCalls env (some ⟨sock, client, data.take dnsWireMaxMsgLen⟩) origins acts).foldl (LogCall.apply cfg)
      p.log := by
  cases handleClientDatagram_turn handled with
  | empty nothing => exact absurd nothing received
  | passed parsed _ passed =>
    exact forwardOrRefuse_log (p := p.counted) (r := ⟨sock, client, data.take dnsWireMaxMsgLen⟩) origins parsed passed
  | blocked parsed _ =>
    rw [turnCalls_single rfl]
    exact logQuestion_call ⟨env.logTime 0, ⟨sock, client, data.take dnsWireMaxMsgLen⟩, .blocked⟩ parsed

theorem handleUpstreamDatagram_log {cfg : Kconfig} {env : Env} {p p' : Proxy N} {data : List Byte}
    {stale : Fin dnsWireMaxMsgLen → Byte} {acts : List (Action N)} (origins : Fin N → Option ClientDatagram)
    (handled : handleUpstreamDatagram p data stale = (p', acts)) :
    p'.log = (turnCalls env none origins acts).foldl (LogCall.apply cfg) p.log := by
  cases handleUpstreamDatagram_turn handled with
  | dropped _ => rfl
  | relayed _ _ _ => rfl

/-- Up to the check of the threshold, an expired query is logged as its client asked it. -/
theorem timeOutSlot_log {cfg : Kconfig} {env : Env} {p p' : Proxy N} {slot : Fin N} {r : ClientDatagram}
    (holds : Holds slot r (p.pending slot)) (timed : timeOutSlot cfg env p slot = .ok p') :
    p'.log = (LogRequest.call ⟨env.logTime slot, r, .servfail⟩).toList.foldl (LogCall.apply cfg) p.log := by
  rw [timeOutSlot, holds.parse_timeoutReply] at timed
  simp only [bind, Except.bind] at timed
  split at timed
  · cases timed
  · rename_i question parsed
    cases timed
    rw [← logQuestion_call ⟨env.logTime slot, r, .servfail⟩ parsed, holds.addr]
    rfl

theorem sweepSlot_log {cfg : Kconfig} {env : Env} {p p' : Proxy N} {slot : Fin N} {acts : List (Action N)}
    {origins : Fin N → Option ClientDatagram} (hold : SlotsHold origins p)
    (swept : sweepSlot cfg env p slot = .ok (p', acts)) :
    p'.log = (turnCalls env none origins acts).foldl (LogCall.apply cfg) p.log ∧ SlotsHold origins p' := by
  by_cases expired : Expired cfg env.now (p.pending slot)
  · obtain ⟨r, taken, holds⟩ := hold slot expired.1
    refine ⟨?_, hold.frees (sweepSlot_expired expired swept).1⟩
    have requested : (timeoutAction p slot).request env none origins = some ⟨env.logTime slot, r, .servfail⟩ := by
      rw [timeoutAction, Action.request, taken, Option.map_some]
    have switched : turnCalls env none origins [timeoutAction p slot, .failedOver] =
        turnCalls env none origins [timeoutAction p slot] := rfl
    rw [sweepSlot] at swept
    simp only [if_pos expired, bind, Except.bind] at swept
    split at swept
    · cases swept
    rename_i timed
    have logged := timeOutSlot_log holds timed
    rw [← turnCalls_single requested] at logged
    split at swept
    · cases swept
      exact logged
    · cases swept
      exact logged
  · rw [sweepSlot_idle expired] at swept
    cases swept
    exact ⟨rfl, hold⟩

theorem sweepSlots_log {cfg : Kconfig} {env : Env} {p p' : Proxy N} {slots : List (Fin N)} {acts : List (Action N)}
    {origins : Fin N → Option ClientDatagram} (hold : SlotsHold origins p)
    (swept : sweepSlots cfg env p slots = .ok (p', acts)) :
    p'.log = (turnCalls env none origins acts).foldl (LogCall.apply cfg) p.log := by
  induction slots generalizing p acts with
  | nil =>
    cases swept
    rfl
  | cons slot slots ih =>
    obtain ⟨p₁, sent, rest, here, there, rfl⟩ := sweepSlots_cons swept
    obtain ⟨logged, held⟩ := sweepSlot_log hold here
    rw [ih held there, logged, turnCalls, turnCalls, turnCalls, List.filterMap_append, List.foldl_append]

end

section

variable {cfg : Kconfig} {bs : Bsearch} {upstreamSock : Int} {past : List (Turn (Env × Input) (Action cfg.maxPending))}
  {p : Proxy cfg.maxPending}

/-- **A turn makes the calls of its actions.** -/
theorem turn_log {env : Env} {input : Input} {p' : Proxy cfg.maxPending} {acts : List (Action cfg.maxPending)}
    {origins : Fin cfg.maxPending → Option ClientDatagram} (hold : SlotsHold origins p)
    (taken : turn cfg bs p (env, input) = .ok (p', acts)) :
    p'.log = (turnCalls env input.arrival origins acts).foldl (LogCall.apply cfg) p.log := by
  cases input with
  | client sock addr data stale =>
    by_cases received : data = []
    · subst received
      cases taken
      rfl
    · rw [Input.arrival, if_neg received]
      exact handleClientDatagram_log origins received taken
  | upstream data stale => exact handleUpstreamDatagram_log origins (Except.ok.inj taken)
  | sweep => exact sweepSlots_log hold taken
  | applyUpstreamConfig =>
    cases taken
    rfl

/-- In every state of every run the array is what the calls of the run left. -/
theorem log_run (run : AnyRun cfg bs upstreamSock past p) :
    p.log = (logCalls past).foldl (LogCall.apply cfg) (emptyLog cfg) := by
  apply run.invariant (fun past p => p.log = (logCalls past).foldl (LogCall.apply cfg) (emptyLog cfg))
  · rfl
  · intro past p input p' acts before logged _ taken
    rw [turn_log (slotsHold_run before) taken, logged, logCalls_append, List.foldl_append]

/-- **The query log shows what became of the clients' queries**: in every state of every run a read
returns the latest calls of the run, newest first, as many as the array has room for and are asked for. -/
theorem query_log_exact (pos : 1 ≤ cfg.queryLogSize) (run : AnyRun cfg bs upstreamSock past p) (maxEntries : Nat) :
    ∃ out, dnsProxyGetQueryLog cfg p.log true maxEntries = (out.length, out) ∧
      List.Forall₂ Shows out ((logCalls past).reverse.take (min cfg.queryLogSize maxEntries)) := by
  have ring := ringHolds_calls pos (logCalls past)
  dsimp only at ring
  rw [← log_run run] at ring
  have written := ring.count
  rw [List.length_map] at written
  have count : (if p.log.count < maxEntries then p.log.count else maxEntries) = min p.log.count maxEntries := by
    split <;> omega
  have all : ((logCalls past).map LogCall.entry).reverse.take (min p.log.count maxEntries) =
      ((logCalls past).map LogCall.entry).reverse.take (min cfg.queryLogSize maxEntries) := by
    rw [List.take_eq_take_iff, List.length_reverse, List.length_map]
    omega
  refine ⟨((logCalls past).map LogCall.entry).reverse.take (min cfg.queryLogSize maxEntries), ?_, ?_⟩
  · rw [dnsProxyGetQueryLog, if_pos rfl, count]
    dsimp only
    rw [ring.latest (Nat.min_le_left _ _) {}, all, List.length_take, List.length_reverse, List.length_map]
    congr 1
    omega
  · rw [← List.map_reverse, ← List.map_take, List.forall₂_map_left_iff, List.forall₂_same]
    intro call _
    exact call.shows

end

/-- A query that is forwarded and times out. -/
def unansweredInputs : List (Env × Input) := [askA, (quietEnv 3000000, .sweep)]

/-- It is shown twice, as forwarded and as failed, both times with its own name. -/
theorem unanswered_query_shown_twice : ∃ past p, AnyRun oneSlot .binary 3 past p ∧
    ((logCalls past).map fun call => (call.timeUs, call.qname, call.result)) =
      [(0, [0x61#8], .forwarded), (3000000, [0x61#8], .servfail)] ∧
    ∃ out, dnsProxyGetQueryLog oneSlot p.log true 10 = (out.length, out) ∧
      List.Forall₂ Shows out ((logCalls past).reverse.take (min oneSlot.queryLogSize 10)) := by
  have computed : (Handler.exec (turn oneSlot .binary) (dnsProxyStart oneSlot 3) unansweredInputs).map
      (fun done => (logCalls done.2).map fun call => (call.timeUs, call.qname, call.result)) =
        .ok [(0, [0x61#8], .forwarded), (3000000, [0x61#8], .servfail)] := by
    decide +kernel
  obtain ⟨⟨p, past⟩, done, calls⟩ := exists_of_map_eq_ok computed
  have run : AnyRun oneSlot .binary 3 past p := Handler.run_exec .start (fun _ _ _ _ => trivial) done
  exact ⟨past, p, run, calls, query_log_exact (by decide) run 10⟩

end EspAdblocker.Dns
