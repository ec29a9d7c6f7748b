import EspAdblocker.Dns.Proxy

/-!
# What a turn does to the pending table

`Step` lists what the handlers can do: each constructor is one way through a
handler, with everything a later argument needs of it. A turn of the task is one
step, or for a sweep one step for every slot that expired; the invariants of the
table are proved over steps and the handlers are not unfolded again.
-/

namespace EspAdblocker.Dns

open EspAdblocker.Lib EspAdblocker.Storage

/-- A datagram between a client and a listening socket. -/
structure ClientDatagram where
  sock : ListenSock
  addr : SockAddr
  data : List Byte
  deriving DecidableEq, Repr

/-- The client's datagram a turn receives, as `recvfrom` delivers it. -/
def Input.arrival : Input → Option ClientDatagram
  | .client sock addr data _ => if data = [] then none else some ⟨sock, addr, data.take dnsWireMaxMsgLen⟩
  | _ => none

/-- An upstream datagram is long enough for a transaction id. -/
def Input.Readable : Input → Prop
  | .upstream data _ => 2 ≤ data.length
  | _ => True

/-- The error response to a datagram. -/
def ClientDatagram.servfail (r : ClientDatagram) : List Byte := dnsWireMakeErrorResponse r.data r.data.length dnsRcodeServfail

/-- The slot holds the datagram, its transaction id replaced by the slot's index. -/
structure Holds {N : Nat} (slot : Fin N) (r : ClientDatagram) (q : PendingQuery) : Prop where
  inUse : q.inUse = true
  sock : q.replySock = r.sock
  addr : q.clientAddr = r.addr
  length : q.queryLen = r.data.length
  query : q.query = dnsWireSetTxid r.data (BitVec.ofNat 16 slot)
  txid : 2 ≤ r.data.length → q.clientTxid = dnsWireGetTxid r.data

/-- What a sweep sends for an expired query is the error response to the client's own datagram. -/
theorem Holds.timeoutReply {N : Nat} {slot : Fin N} {r : ClientDatagram} {q : PendingQuery} (h : Holds slot r q)
    (long : 2 ≤ r.data.length) : (timeoutReply q).take q.queryLen = r.servfail := by
  have original : (dnsWireSetTxid q.queryBuf q.clientTxid).take q.queryLen = r.data := by
    have stored : q.queryBuf.take q.queryLen = dnsWireSetTxid r.data (BitVec.ofNat 16 slot) := h.query
    rw [take_dnsWireSetTxid, stored, dnsWireSetTxid_set, h.txid long, dnsWireSetTxid_self long]
  rw [Dns.timeoutReply, take_dnsWireMakeErrorResponse, original, h.length, ClientDatagram.servfail]

section

variable {N : Nat}

/-- The table and the count of timeouts are as before. -/
structure SameTable (p p' : Proxy N) : Prop where
  pending : p'.pending = p.pending
  timeouts : p'.consecutiveTimeouts = p.consecutiveTimeouts

/-- One slot has been taken for a query. -/
structure Takes (p p' : Proxy N) (slot : Fin N) (q : PendingQuery) : Prop where
  here : p'.pending slot = q
  others : ∀ other, other ≠ slot → p'.pending other = p.pending other
  timeouts : p'.consecutiveTimeouts = p.consecutiveTimeouts

/-- One slot has been freed. -/
structure Frees (p p' : Proxy N) (slot : Fin N) : Prop where
  here : (p'.pending slot).inUse = false
  others : ∀ other, other ≠ slot → p'.pending other = p.pending other

/-- The SERVFAIL of a sweep. -/
def timeoutAction (p : Proxy N) (slot : Fin N) : Action N :=
  .timedOut slot (p.pending slot).replySock (p.pending slot).clientAddr
    ((timeoutReply (p.pending slot)).take (p.pending slot).queryLen)

/-- What a handler can do with the table, from the datagram received to what it sends. -/
inductive Step (cfg : Kconfig) (env : Env) (p : Proxy N) : Option ClientDatagram → List (Action N) → Proxy N → Prop where
  /-- Nothing was received, or a reply that matches no query. -/
  | idle {p' : Proxy N} : SameTable p p' → Step cfg env p none [] p'
  /-- A query is blocked. -/
  | blocked {r : ClientDatagram} {bytes : List Byte} {p' : Proxy N} :
      dnsWireGetTxid bytes = dnsWireGetTxid r.data → SameTable p p' →
      Step cfg env p (some r) [.blocked r.sock r.addr bytes] p'
  /-- A query finds the table full. -/
  | refused {r : ClientDatagram} {p' : Proxy N} :
      (∀ slot, (p.pending slot).inUse = true) → SameTable p p' →
      Step cfg env p (some r) [.refused r.sock r.addr r.servfail] p'
  /-- A query is forwarded from a free slot. -/
  | forward {r : ClientDatagram} {slot : Fin N} {q : PendingQuery} {p' : Proxy N} :
      (p.pending slot).inUse = false → Holds slot r q → q.sentAtUs = env.now → Takes p p' slot q →
      Step cfg env p (some r) [.forward slot q.query] p'
  /-- A reply is relayed to the client of the slot it names. -/
  | relayed {slot : Fin N} {reply : List Byte} {p' : Proxy N} :
      2 ≤ reply.length → (dnsWireGetTxid reply).toNat = slot → (p.pending slot).inUse = true → Frees p p' slot →
      p'.consecutiveTimeouts = 0 →
      Step cfg env p none [.relayed slot (p.pending slot).replySock (p.pending slot).clientAddr
        (dnsWireSetTxid reply (p.pending slot).clientTxid)] p'
  /-- A query has expired. -/
  | timedOut {slot : Fin N} {p' : Proxy N} :
      Expired cfg env.now (p.pending slot) → Frees p p' slot →
      p.consecutiveTimeouts + 1 < cfg.upstreamFailThreshold →
      p'.consecutiveTimeouts = p.consecutiveTimeouts + 1 → Step cfg env p none [timeoutAction p slot] p'
  /-- A query has expired and the threshold is reached. -/
  | switched {slot : Fin N} {p' : Proxy N} :
      Expired cfg env.now (p.pending slot) → Frees p p' slot →
      cfg.upstreamFailThreshold ≤ p.consecutiveTimeouts + 1 →
      p'.consecutiveTimeouts = 0 → Step cfg env p none [timeoutAction p slot, .failedOver] p'
  /-- The upstream settings are applied. -/
  | reconfigured {p' : Proxy N} :
      p'.pending = p.pending → p'.consecutiveTimeouts = 0 → Step cfg env p none [.reconfigured] p'

/-- A step that may have received a datagram, then steps that have not. -/
inductive Steps (cfg : Kconfig) (env : Env) (p : Proxy N) : Option ClientDatagram → List (Action N) → Proxy N → Prop where
  | single {arrival : Option ClientDatagram} {acts : List (Action N)} {p' : Proxy N} :
      Step cfg env p arrival acts p' → Steps cfg env p arrival acts p'
  | more {arrival : Option ClientDatagram} {acts acts' : List (Action N)} {p₁ p₂ : Proxy N} :
      Steps cfg env p arrival acts p₁ → Step cfg env p₁ none acts' p₂ → Steps cfg env p arrival (acts ++ acts') p₂

/-! ## The handlers -/

theorem length_take_le (data : List Byte) : (data.take dnsWireMaxMsgLen).length ≤ dnsWireMaxMsgLen := by
  rw [List.length_take]
  exact Nat.min_le_left _ _

/-- The received message is at the front of the buffer. -/
theorem take_recvBuf (data : List Byte) (stale : Fin dnsWireMaxMsgLen → Byte) :
    (recvBuf data stale).take (data.take dnsWireMaxMsgLen).length = data.take dnsWireMaxMsgLen := by
  rw [recvBuf, List.take_left]

theorem length_recvBuf (data : List Byte) (stale : Fin dnsWireMaxMsgLen → Byte) :
    (recvBuf data stale).length = dnsWireMaxMsgLen := by
  have short := length_take_le data
  rw [recvBuf, List.length_append, List.length_drop, List.length_ofFn]
  omega

theorem dnsWireGetTxid_recvBuf {data : List Byte} (stale : Fin dnsWireMaxMsgLen → Byte)
    (long : 2 ≤ (data.take dnsWireMaxMsgLen).length) :
    dnsWireGetTxid (recvBuf data stale) = dnsWireGetTxid (data.take dnsWireMaxMsgLen) := by
  rw [← dnsWireGetTxid_take (recvBuf data stale) long, take_recvBuf]

theorem findFreeSlot_some {p : Proxy N} {slot : Fin N} (found : findFreeSlot p = some slot) :
    (p.pending slot).inUse = false := by
  simpa using List.find?_some found

theorem findFreeSlot_none {p : Proxy N} (full : findFreeSlot p = none) (slot : Fin N) :
    (p.pending slot).inUse = true := by
  simpa using List.find?_eq_none.mp full slot (List.mem_finRange slot)

@[simp] theorem logQuestion_pending (cfg : Kconfig) (p : Proxy N) (time : Option Int) (client : SockAddr)
    (question : Option DnsWireQuestion) (result : QueryResult) :
    (p.logQuestion cfg time client question result).pending = p.pending := by
  cases question <;> rfl

@[simp] theorem logQuestion_timeouts (cfg : Kconfig) (p : Proxy N) (time : Option Int) (client : SockAddr)
    (question : Option DnsWireQuestion) (result : QueryResult) :
    (p.logQuestion cfg time client question result).consecutiveTimeouts = p.consecutiveTimeouts := by
  cases question <;> rfl

/-- The reply to a blocked query keeps its transaction id. -/
theorem dnsWireGetTxid_blockReply {policy : BitVec 8} {buf : List Byte} {n : Nat} {q : DnsWireQuestion}
    (long : 2 ≤ buf.length) (inside : 2 ≤ n) (past : 2 ≤ q.questionEnd) :
    dnsWireGetTxid (blockReply policy buf n q) = dnsWireGetTxid buf := by
  have error : dnsWireGetTxid ((dnsWireMakeErrorResponse buf n dnsRcodeNxdomain).take n) = dnsWireGetTxid buf := by
    rw [dnsWireGetTxid_take _ inside, dnsWireGetTxid_errorResponse]
  have keeps : dnsWireGetTxid (dnsWireMakeZeroAnswer buf q.questionEnd dnsWireMaxMsgLen q.qtype).2 = dnsWireGetTxid buf :=
    dnsWireGetTxid_zeroAnswer long past
  have longer : 0 < (dnsWireMakeZeroAnswer buf q.questionEnd dnsWireMaxMsgLen q.qtype).1 →
      q.questionEnd ≤ (dnsWireMakeZeroAnswer buf q.questionEnd dnsWireMaxMsgLen q.qtype).1 := le_zeroAnswer_length
  rw [blockReply]
  generalize dnsWireMakeZeroAnswer buf q.questionEnd dnsWireMaxMsgLen q.qtype = answer at keeps longer
  obtain ⟨newLen, zero⟩ := answer
  split
  · dsimp only
    split
    · rename_i written
      rw [dnsWireGetTxid_take _ (past.trans (longer written)), keeps]
    · exact error
  · exact error

theorem tryBlock_some {bs : Bsearch} {d : Device} {buf bytes : List Byte} {n : Nat} {q : DnsWireQuestion}
    (tried : tryBlock bs d buf n q = .ok (some bytes)) : bytes = blockReply d.nvs.policy buf n q := by
  rcases decided : blocks bs d q.qname with fault | b
  · rw [tryBlock, decided] at tried
    cases tried
  · rw [tryBlock_of_blocks decided, Except.ok.injEq] at tried
    cases b with
    | false => cases tried
    | true => exact (Option.some.inj tried).symm

/-- The path of a query that is not blocked, from a state that has only been counted in. -/
theorem forwardOrRefuse_step {cfg : Kconfig} {env : Env} {p₀ p p' : Proxy N} {sock : ListenSock} {client : SockAddr}
    {data : List Byte} {stale : Fin dnsWireMaxMsgLen → Byte} {question : Option DnsWireQuestion} {acts : List (Action N)}
    (same : SameTable p₀ p)
    (handled : forwardOrRefuse cfg env p sock client (recvBuf data stale) (data.take dnsWireMaxMsgLen).length question =
      (p', acts)) :
    Step cfg env p₀ (some ⟨sock, client, data.take dnsWireMaxMsgLen⟩) acts p' := by
  rw [forwardOrRefuse] at handled
  split at handled
  · rename_i full
    cases handled
    have reply : (dnsWireMakeErrorResponse (recvBuf data stale) (data.take dnsWireMaxMsgLen).length dnsRcodeServfail).take
        (data.take dnsWireMaxMsgLen).length = ClientDatagram.servfail ⟨sock, client, data.take dnsWireMaxMsgLen⟩ := by
      rw [take_dnsWireMakeErrorResponse, take_recvBuf, ClientDatagram.servfail]
    rw [reply]
    refine .refused (fun slot => ?_) ⟨by simp [same.pending], by simp [same.timeouts]⟩
    rw [← same.pending]
    exact findFreeSlot_none full slot
  · rename_i slot found
    cases handled
    have free : (p₀.pending slot).inUse = false := by
      rw [← same.pending]
      exact findFreeSlot_some found
    refine .forward free ?_ rfl ⟨?_, ?_, by simp [Proxy.setPending, same.timeouts]⟩
    · refine ⟨rfl, rfl, rfl, rfl, ?_, fun long => dnsWireGetTxid_recvBuf stale long⟩
      simp only [PendingQuery.query]
      rw [take_dnsWireSetTxid, take_recvBuf, writeAt, List.take_zero, List.nil_append, List.take_left]
    · simp [Proxy.setPending]
    · intro other there
      simp [Proxy.setPending, Function.update_of_ne there, same.pending]

/-- The proxy with one more query counted. -/
def Proxy.counted (p : Proxy N) : Proxy N := { p with stats.queriesTotal := p.stats.queriesTotal + 1#32 }

/-- What `handle_client_datagram` leaves and sends: nothing for an empty datagram;
otherwise the query is counted, and then forwarded or refused unless its question is
blocked. -/
inductive ClientTurn (cfg : Kconfig) (bs : Bsearch) (env : Env) (p : Proxy N) (sock : ListenSock) (client : SockAddr)
    (data : List Byte) (stale : Fin dnsWireMaxMsgLen → Byte) : Proxy N → List (Action N) → Prop where
  | empty : data = [] → ClientTurn cfg bs env p sock client data stale p []
  | passed {question : Option DnsWireQuestion} {p' : Proxy N} {acts : List (Action N)} :
      dnsWireParseQuestion (data.take dnsWireMaxMsgLen) = .ok question →
      (∀ q, dnsWireParseQuestion (data.take dnsWireMaxMsgLen) = .ok (some q) → blocks bs env.device q.qname ≠ .ok true) →
      forwardOrRefuse cfg env p.counted sock client (recvBuf data stale) (data.take dnsWireMaxMsgLen).length question =
        (p', acts) →
      ClientTurn cfg bs env p sock client data stale p' acts
  | blocked {q : DnsWireQuestion} : dnsWireParseQuestion (data.take dnsWireMaxMsgLen) = .ok (some q) →
      blocks bs env.device q.qname = .ok true →
      ClientTurn cfg bs env p sock client data stale
        (Proxy.logQuestion cfg { p.counted with
          stats.queriesBlocked := p.stats.queriesBlocked + 1#32
          history := recordBlocked p.history env.unixTime } (env.logTime 0) client (some q) .blocked)
        [.blocked sock client
          (blockReply env.device.nvs.policy (recvBuf data stale) (data.take dnsWireMaxMsgLen).length q)]

theorem handleClientDatagram_turn {cfg : Kconfig} {bs : Bsearch} {env : Env} {p p' : Proxy N} {sock : ListenSock}
    {client : SockAddr} {data : List Byte} {stale : Fin dnsWireMaxMsgLen → Byte} {acts : List (Action N)}
    (handled : handleClientDatagram cfg bs env p sock client data stale = .ok (p', acts)) :
    ClientTurn cfg bs env p sock client data stale p' acts := by
  unfold handleClientDatagram at handled
  simp only [take_recvBuf, bind, Except.bind] at handled
  split at handled
  · rename_i empty
    cases handled
    apply ClientTurn.empty
    rw [List.length_take, dnsWireMaxMsgLen] at empty
    exact List.length_eq_zero_iff.mp (by omega)
  split at handled
  · cases handled
  rename_i parsed
  split at handled
  · refine .passed parsed (fun q accepted => ?_) (Except.ok.inj handled)
    rw [parsed] at accepted
    cases accepted
  rename_i q
  rcases decided : blocks bs env.device q.qname with fault | b
  · rw [tryBlock, decided] at handled
    cases handled
  rw [tryBlock_of_blocks decided] at handled
  cases b with
  | false =>
    refine .passed parsed (fun q' accepted => ?_) (Except.ok.inj handled)
    obtain rfl : q = q' := Option.some.inj (Except.ok.inj (parsed.symm.trans accepted))
    rw [decided]
    decide
  | true =>
    cases handled
    exact .blocked parsed decided

/-- `handle_client_datagram` on a datagram that is not empty is one step. -/
theorem handleClientDatagram_step {cfg : Kconfig} {bs : Bsearch} {env : Env} {p p' : Proxy N} {sock : ListenSock}
    {client : SockAddr} {data : List Byte} {stale : Fin dnsWireMaxMsgLen → Byte} {acts : List (Action N)}
    (received : data ≠ []) (handled : handleClientDatagram cfg bs env p sock client data stale = .ok (p', acts)) :
    Step cfg env p (some ⟨sock, client, data.take dnsWireMaxMsgLen⟩) acts p' := by
  have counted : SameTable p p.counted := ⟨rfl, rfl⟩
  cases handleClientDatagram_turn handled with
  | empty nothing => exact absurd nothing received
  | passed _ _ passed => exact forwardOrRefuse_step counted passed
  | blocked parsed _ =>
    refine .blocked ?_ ⟨by simp [Proxy.counted], by simp [Proxy.counted]⟩
    obtain ⟨past, inside⟩ := questionEnd_bounds parsed
    have short := length_take_le data
    have buffer := length_recvBuf data stale
    rw [dnsWireGetTxid_blockReply (by omega) (by omega) (by omega), dnsWireGetTxid_recvBuf stale (by omega)]

/-- What `handle_upstream_datagram` leaves and sends: it drops a datagram unless the
socket is open and the transaction id, read from the buffer, names a slot in use. -/
inductive UpstreamTurn (p : Proxy N) (data : List Byte) (stale : Fin dnsWireMaxMsgLen → Byte) :
    Proxy N → List (Action N) → Prop where
  | dropped : (data = [] ∨ p.upstreamSock < 0 ∨
      ∀ slot : Fin N, (dnsWireGetTxid (recvBuf data stale)).toNat = slot → (p.pending slot).inUse = false) →
      UpstreamTurn p data stale p []
  | relayed {slot : Fin N} : 0 ≤ p.upstreamSock → (dnsWireGetTxid (recvBuf data stale)).toNat = slot →
      (p.pending slot).inUse = true →
      UpstreamTurn p data stale
        { p.setPending slot { p.pending slot with inUse := false } with consecutiveTimeouts := 0 }
        [.relayed slot (p.pending slot).replySock (p.pending slot).clientAddr
          (dnsWireSetTxid (data.take dnsWireMaxMsgLen) (p.pending slot).clientTxid)]

theorem handleUpstreamDatagram_turn {p p' : Proxy N} {data : List Byte} {stale : Fin dnsWireMaxMsgLen → Byte}
    {acts : List (Action N)} (handled : handleUpstreamDatagram p data stale = (p', acts)) :
    UpstreamTurn p data stale p' acts := by
  rw [handleUpstreamDatagram] at handled
  dsimp only at handled
  split at handled
  · rename_i closed
    cases handled
    rw [List.length_take, dnsWireMaxMsgLen] at closed
    exact .dropped (closed.imp (fun empty => List.length_eq_zero_iff.mp (by omega)) .inl)
  rename_i opened
  split at handled
  · rename_i inside
    split at handled
    · rename_i waiting
      cases handled
      rw [take_dnsWireSetTxid, take_recvBuf]
      exact .relayed (by omega) rfl waiting
    · rename_i idle
      cases handled
      refine .dropped (.inr (.inr fun slot named => ?_))
      obtain rfl : slot = ⟨_, inside⟩ := Fin.ext named.symm
      exact Bool.eq_false_of_not_eq_true idle
  · rename_i outside
    cases handled
    exact .dropped (.inr (.inr fun slot named => absurd (named ▸ slot.isLt) outside))

/-- `handle_upstream_datagram` drops a datagram or relays it to the client of the slot it names. -/
theorem handleUpstreamDatagram_cases {p p' : Proxy N} {data : List Byte} {stale : Fin dnsWireMaxMsgLen → Byte}
    {acts : List (Action N)} (handled : handleUpstreamDatagram p data stale = (p', acts)) :
    (SameTable p p' ∧ acts = []) ∨
      ∃ slot : Fin N, (dnsWireGetTxid (recvBuf data stale)).toNat = slot ∧ (p.pending slot).inUse = true ∧
        Frees p p' slot ∧ p'.consecutiveTimeouts = 0 ∧
        acts = [.relayed slot (p.pending slot).replySock (p.pending slot).clientAddr
          (dnsWireSetTxid (data.take dnsWireMaxMsgLen) (p.pending slot).clientTxid)] := by
  cases handleUpstreamDatagram_turn handled with
  | dropped _ => exact .inl ⟨⟨rfl, rfl⟩, rfl⟩
  | relayed _ named waiting =>
    refine .inr ⟨_, named, waiting, ⟨?_, ?_⟩, rfl, rfl⟩
    · simp [Proxy.setPending]
    · intro other there
      simp [Proxy.setPending, Function.update_of_ne there]

/-- `handle_upstream_datagram`. -/
theorem handleUpstreamDatagram_step (cfg : Kconfig) (env : Env) {p p' : Proxy N} {data : List Byte}
    {stale : Fin dnsWireMaxMsgLen → Byte} {acts : List (Action N)} (long : 2 ≤ data.length)
    (handled : handleUpstreamDatagram p data stale = (p', acts)) : Step cfg env p none acts p' := by
  have readable : 2 ≤ (data.take dnsWireMaxMsgLen).length := by
    rw [List.length_take, dnsWireMaxMsgLen]
    omega
  obtain ⟨same, rfl⟩ | ⟨slot, named, waiting, frees, reset, rfl⟩ := handleUpstreamDatagram_cases handled
  · exact .idle same
  · rw [dnsWireGetTxid_recvBuf stale readable] at named
    exact .relayed readable named waiting frees reset

/-- Up to the check of the threshold, an expired slot is freed and counted. -/
theorem timeOutSlot_ok {cfg : Kconfig} {env : Env} {p p' : Proxy N} {slot : Fin N}
    (timed : timeOutSlot cfg env p slot = .ok p') :
    Frees p p' slot ∧ p'.consecutiveTimeouts = p.consecutiveTimeouts + 1 := by
  rw [timeOutSlot] at timed
  simp only [bind, Except.bind] at timed
  split at timed
  · cases timed
  · cases timed
    refine ⟨⟨by simp [Proxy.setPending], ?_⟩, by simp [Proxy.setPending]⟩
    intro other there
    simp [Proxy.setPending, Function.update_of_ne there]

theorem sweepSlot_idle {cfg : Kconfig} {env : Env} {p : Proxy N} {slot : Fin N}
    (waiting : ¬ Expired cfg env.now (p.pending slot)) : sweepSlot cfg env p slot = .ok (p, []) := by
  rw [sweepSlot]
  exact if_neg waiting

/-- One turn of the loop of `sweep_timeouts` on an expired slot. -/
theorem sweepSlot_expired {cfg : Kconfig} {env : Env} {p p' : Proxy N} {slot : Fin N} {acts : List (Action N)}
    (expired : Expired cfg env.now (p.pending slot)) (swept : sweepSlot cfg env p slot = .ok (p', acts)) :
    Frees p p' slot ∧
      ((p.consecutiveTimeouts + 1 < cfg.upstreamFailThreshold ∧ p'.consecutiveTimeouts = p.consecutiveTimeouts + 1 ∧
          acts = [timeoutAction p slot]) ∨
        (cfg.upstreamFailThreshold ≤ p.consecutiveTimeouts + 1 ∧ p'.consecutiveTimeouts = 0 ∧
          acts = [timeoutAction p slot, .failedOver])) := by
  rw [sweepSlot] at swept
  simp only [if_pos expired, bind, Except.bind] at swept
  split at swept
  · cases swept
  · rename_i timed
    obtain ⟨freed, counted⟩ := timeOutSlot_ok timed
    split at swept
    · rename_i reached
      cases swept
      rw [counted] at reached
      exact ⟨⟨freed.here, freed.others⟩, .inr ⟨reached, rfl, rfl⟩⟩
    · rename_i below
      cases swept
      rw [counted] at below
      exact ⟨freed, .inl ⟨Nat.lt_of_not_le below, counted, rfl⟩⟩

/-- One turn of the loop of `sweep_timeouts`. -/
theorem sweepSlot_step {cfg : Kconfig} {env : Env} {p p' : Proxy N} {slot : Fin N} {acts : List (Action N)}
    (swept : sweepSlot cfg env p slot = .ok (p', acts)) : Step cfg env p none acts p' := by
  by_cases expired : Expired cfg env.now (p.pending slot)
  · obtain ⟨freed, ⟨below, counted, rfl⟩ | ⟨reached, reset, rfl⟩⟩ := sweepSlot_expired expired swept
    · exact .timedOut expired freed below counted
    · exact .switched expired freed reached reset
  · rw [sweepSlot_idle expired] at swept
    cases swept
    exact .idle ⟨rfl, rfl⟩

/-- The loop of `sweep_timeouts` on its next slot. -/
theorem sweepSlots_cons {cfg : Kconfig} {env : Env} {p p' : Proxy N} {slot : Fin N} {slots : List (Fin N)}
    {acts : List (Action N)} (swept : sweepSlots cfg env p (slot :: slots) = .ok (p', acts)) :
    ∃ p₁ sent rest, sweepSlot cfg env p slot = .ok (p₁, sent) ∧ sweepSlots cfg env p₁ slots = .ok (p', rest) ∧
      acts = sent ++ rest := by
  rw [sweepSlots] at swept
  simp only [bind, Except.bind] at swept
  split at swept
  · cases swept
  · rename_i first
    split at swept
    · cases swept
    · rename_i rest
      cases swept
      exact ⟨_, _, _, first, rest, rfl⟩

/-- The loop of `sweep_timeouts`. -/
theorem sweepSlots_steps {cfg : Kconfig} {env : Env} {start p p' : Proxy N} {slots : List (Fin N)}
    {sent acts : List (Action N)} (before : Steps cfg env start none sent p)
    (swept : sweepSlots cfg env p slots = .ok (p', acts)) : Steps cfg env start none (sent ++ acts) p' := by
  induction slots generalizing p sent acts with
  | nil =>
    cases swept
    rwa [List.append_nil]
  | cons slot slots ih =>
    obtain ⟨p₁, sent, rest, here, there, rfl⟩ := sweepSlots_cons swept
    rw [← List.append_assoc]
    exact ih (.more before (sweepSlot_step here)) there

end

/-- **Every turn is made of steps.** -/
theorem turn_steps {cfg : Kconfig} {bs : Bsearch} {p p' : Proxy cfg.maxPending} {env : Env} {input : Input}
    {acts : List (Action cfg.maxPending)} (readable : input.Readable) (taken : turn cfg bs p (env, input) = .ok (p', acts)) :
    Steps cfg env p input.arrival acts p' := by
  cases input with
  | client sock addr data stale =>
    by_cases received : data = []
    · subst received
      cases taken
      exact .single (.idle ⟨rfl, rfl⟩)
    · rw [Input.arrival, if_neg received]
      exact .single (handleClientDatagram_step received taken)
  | upstream data stale =>
    exact .single (handleUpstreamDatagram_step cfg env readable (Except.ok.inj taken))
  | sweep => exact sweepSlots_steps (.single (.idle ⟨rfl, rfl⟩)) taken
  | applyUpstreamConfig =>
    cases taken
    exact .single (.reconfigured rfl rfl)

/-! ## Turns complete -/

theorem timeOutSlot_total {N : Nat} (cfg : Kconfig) (env : Env) (p : Proxy N) (slot : Fin N) :
    ∃ p', timeOutSlot cfg env p slot = .ok p' := by
  obtain ⟨question, parsed⟩ :=
    dnsWireParseQuestion_total ((timeoutReply (p.pending slot)).take (p.pending slot).queryLen)
  rw [timeOutSlot, parsed]
  exact ⟨_, rfl⟩

theorem sweepSlot_total {N : Nat} (cfg : Kconfig) (env : Env) (p : Proxy N) (slot : Fin N) :
    ∃ r, sweepSlot cfg env p slot = .ok r := by
  obtain ⟨p', timed⟩ := timeOutSlot_total cfg env p slot
  rw [sweepSlot]
  simp only [timed, bind, Except.bind]
  split
  · split <;> exact ⟨_, rfl⟩
  · exact ⟨_, rfl⟩

theorem sweepSlots_total {N : Nat} (cfg : Kconfig) (env : Env) (p : Proxy N) (slots : List (Fin N)) :
    ∃ r, sweepSlots cfg env p slots = .ok r := by
  induction slots generalizing p with
  | nil => exact ⟨_, rfl⟩
  | cons slot slots ih =>
    obtain ⟨⟨p₁, sent⟩, first⟩ := sweepSlot_total cfg env p slot
    obtain ⟨⟨p₂, rest⟩, later⟩ := ih p₁
    exact ⟨(p₂, sent ++ rest), by rw [sweepSlots, first]; simp only [bind, Except.bind, later]; rfl⟩

/-- **A turn completes whenever the decision to block does**: no handler reads outside a message or the table. -/
theorem turn_total {cfg : Kconfig} {bs : Bsearch} {env : Env} (decides : ∀ qname, ∃ b, blocks bs env.device qname = .ok b)
    (p : Proxy cfg.maxPending) (input : Input) : ∃ r, turn cfg bs p (env, input) = .ok r := by
  cases input with
  | client sock addr data stale =>
    show ∃ r, handleClientDatagram cfg bs env p sock addr data stale = .ok r
    rw [handleClientDatagram]
    dsimp only
    split
    · exact ⟨_, rfl⟩
    obtain ⟨question, parsed⟩ := dnsWireParseQuestion_total
      ((recvBuf data stale).take (data.take dnsWireMaxMsgLen).length)
    rw [parsed]
    match question with
    | none => exact ⟨_, rfl⟩
    | some q =>
      obtain ⟨b, decided⟩ := decides q.qname
      simp only [bind, Except.bind, tryBlock_of_blocks decided]
      cases b <;> exact ⟨_, rfl⟩
  | upstream data stale => exact ⟨_, rfl⟩
  | sweep => exact sweepSlots_total cfg env p _
  | applyUpstreamConfig => exact ⟨_, rfl⟩

end EspAdblocker.Dns
