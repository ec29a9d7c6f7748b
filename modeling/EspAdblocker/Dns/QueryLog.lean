import EspAdblocker.Dns.Marking
import EspAdblocker.Lib.Ring

/-!
# The query log

`log_query` writes round and round an array of `CONFIG_DNS_PROXY_QUERY_LOG_SIZE`
entries and `dns_proxy_get_query_log` reads it backwards. The array is a ring of
the library, so what is read are the latest calls, newest first, each shown with
all its arguments.
-/

namespace EspAdblocker.Dns

open EspAdblocker.Lib EspAdblocker.Storage

/-- `dns_proxy_get_query_log`: the number of entries and what is copied into `out`; nothing without the mutex. -/
def dnsProxyGetQueryLog (cfg : Kconfig) (log : QueryLog) (mutex : Bool) (maxEntries : Nat) : Nat × List QueryLogEntry :=
  if mutex then
    let count := if log.count < maxEntries then log.count else maxEntries
    (count, (List.range count).map fun i =>
      log.entries.getD ((log.next + cfg.queryLogSize - 1 - i) % cfg.queryLogSize) {})
  else (0, [])

/-- The log of a proxy that has just been started. -/
def emptyLog (cfg : Kconfig) : QueryLog := { entries := List.replicate cfg.queryLogSize {} }

/-! ## Calls -/

/-- A call of `log_query` that gets the mutex. Its name is a C string in a `char[DNS_WIRE_MAX_NAME_LEN]`. -/
structure LogCall where
  timeUs : Int
  client : SockAddr
  qname : List Byte
  qtype : BitVec 16
  result : QueryResult
  fits : (cstr qname).length < dnsWireMaxNameLen

/-- The log after the call. -/
def LogCall.apply (cfg : Kconfig) (log : QueryLog) (call : LogCall) : QueryLog :=
  logQuery cfg log (some call.timeUs) call.client call.qname call.qtype call.result

/-- The entry the call writes. -/
def LogCall.entry (call : LogCall) : QueryLogEntry where
  timeUs := call.timeUs
  clientAddr := sockaddrToClientAddr call.client
  qtype := call.qtype
  result := call.result
  qname := (cstr call.qname).take (dnsWireMaxNameLen - 1)

/-- The address of an IPv4 or IPv6 datagram. -/
def SockAddr.IsInet (sa : SockAddr) : Prop :=
  (sa.family = afInet ∧ sa.addr.length = 4) ∨ (sa.family = afInet6 ∧ sa.addr.length = 16)

/-- The address in a logged address: 16 bytes for IPv6, 4 otherwise. -/
def DnsClientAddr.bytes (a : DnsClientAddr) : List Byte := a.addr.take (if a.family = afInet6 then 16 else 4)

/-- The entry shows the call: its time, type and result, the whole name, and the client's address. -/
structure Shows (entry : QueryLogEntry) (call : LogCall) : Prop where
  timeUs : entry.timeUs = call.timeUs
  qtype : entry.qtype = call.qtype
  result : entry.result = call.result
  qname : entry.qname = cstr call.qname
  client : entry.clientAddr = sockaddrToClientAddr call.client
  address : call.client.IsInet → entry.clientAddr.family = call.client.family ∧ entry.clientAddr.bytes = call.client.addr

/-- `memcpy` of an address to the front of `addr`. -/
theorem take_copied {addr : List Byte} {n : Nat} (length : addr.length = n) (array : List Byte) :
    (writeAt array 0 (addr.take n)).take n = addr := by
  rw [writeAt, List.take_zero, List.nil_append, List.take_of_length_le (Nat.le_of_eq length), List.take_left' length]

/-- An Internet address is logged whole. -/
theorem sockaddrToClientAddr_inet {sa : SockAddr} (inet : sa.IsInet) :
    (sockaddrToClientAddr sa).family = sa.family ∧ (sockaddrToClientAddr sa).bytes = sa.addr := by
  rcases inet with ⟨family, length⟩ | ⟨family, length⟩
  · rw [sockaddrToClientAddr, if_pos family, family]
    exact ⟨rfl, take_copied length _⟩
  · have other : sa.family ≠ afInet := by
      rw [family]
      decide
    rw [sockaddrToClientAddr, if_neg other, if_pos family, family]
    exact ⟨rfl, take_copied length _⟩

theorem LogCall.shows (call : LogCall) : Shows call.entry call where
  timeUs := rfl
  qtype := rfl
  result := rfl
  qname := List.take_of_length_le (Nat.le_pred_of_lt call.fits)
  client := rfl
  address := sockaddrToClientAddr_inet

/-! ## The log after some calls -/

section

variable {cfg : Kconfig}

/-- After some calls the array holds the latest of their entries. -/
theorem ringHolds_calls (pos : 1 ≤ cfg.queryLogSize) (calls : List LogCall) :
    let log := calls.foldl (LogCall.apply cfg) (emptyLog cfg)
    RingHolds cfg.queryLogSize log.entries log.next log.count (calls.map LogCall.entry) := by
  induction calls using List.reverseRecOn with
  | nil => exact ringHolds_nil List.length_replicate
  | append_singleton calls call ih =>
    rw [List.foldl_append, List.map_append]
    exact ih.push pos call.entry

/-- **The query log gives the latest calls, newest first**, as many as were made, fit and are asked for. -/
theorem query_log_latest (pos : 1 ≤ cfg.queryLogSize) (calls : List LogCall) (maxEntries : Nat) :
    ∃ out, dnsProxyGetQueryLog cfg (calls.foldl (LogCall.apply cfg) (emptyLog cfg)) true maxEntries =
        (min (min calls.length cfg.queryLogSize) maxEntries, out) ∧
      List.Forall₂ Shows out (calls.reverse.take (min (min calls.length cfg.queryLogSize) maxEntries)) := by
  have ring := ringHolds_calls pos calls
  have written := ring.count
  rw [List.length_map] at written
  have count : (if (calls.foldl (LogCall.apply cfg) (emptyLog cfg)).count < maxEntries then
      (calls.foldl (LogCall.apply cfg) (emptyLog cfg)).count else maxEntries) =
      min (min calls.length cfg.queryLogSize) maxEntries := by
    split <;> omega
  have few : min (min calls.length cfg.queryLogSize) maxEntries ≤
      (calls.foldl (LogCall.apply cfg) (emptyLog cfg)).count := by omega
  unfold dnsProxyGetQueryLog
  rw [if_pos rfl, count]
  refine ⟨_, rfl, ?_⟩
  rw [ring.latest few {}, ← List.map_reverse, ← List.map_take, List.forall₂_map_left_iff, List.forall₂_same]
  intro call _
  exact call.shows

/-- A name the parser accepts fits the log. -/
theorem fits_of_accepted {msg : List Byte} {q : DnsWireQuestion} (accepted : dnsWireParseQuestion msg = .ok (some q)) :
    (cstr q.qname).length < dnsWireMaxNameLen := by
  obtain ⟨labels, qtype, qclass, rest, asks, rfl⟩ := dnsWireParseQuestion_iff.mp accepted
  have fits := asks.fits
  have whole : (cstr (dotted labels)).length ≤ (dotted labels).length := (List.takeWhile_sublist _).length_le
  rw [length_dotted] at whole
  rw [dnsWireMaxNameLen]
  exact Nat.lt_succ_of_le (whole.trans fits)

/-- The call that logs an accepted question. -/
def LogCall.ofQuestion {msg : List Byte} {q : DnsWireQuestion} (accepted : dnsWireParseQuestion msg = .ok (some q))
    (timeUs : Int) (client : SockAddr) (result : QueryResult) : LogCall :=
  { timeUs, client, qname := q.qname, qtype := q.qtype, result, fits := fits_of_accepted accepted }

end

/-- A query for `a` logged at a time. -/
def logA (timeUs : Int) : LogCall where
  timeUs
  client := ⟨afInet, [192#8, 168#8, 1#8, 2#8], 5000#16⟩
  qname := [0x61#8]
  qtype := dnsTypeA
  result := .forwarded
  fits := by decide

/-- A log of two entries. -/
def twoEntries : Kconfig := { maxPending := 1, upstreamTimeoutMs := 3000, upstreamFailThreshold := 5, queryLogSize := 2 }

/-- Of three calls the last two are read. -/
theorem wrapped_log_read : ∃ out, dnsProxyGetQueryLog twoEntries
      ([logA 1, logA 2, logA 3].foldl (LogCall.apply twoEntries) (emptyLog twoEntries)) true 5 = (2, out) ∧
    List.Forall₂ Shows out [logA 3, logA 2] :=
  query_log_latest (by decide) [logA 1, logA 2, logA 3] 5

/-! ## Over whole runs -/

section

variable {cfg : Kconfig} {bs : Bsearch} {upstreamSock : Int} {past : List (Turn (Env × Input) (Action cfg.maxPending))}

/-- The log is what some calls left, each for a question that was accepted. -/
def Logged (cfg : Kconfig) (log : QueryLog) : Prop :=
  ∃ calls : List LogCall, log = calls.foldl (LogCall.apply cfg) (emptyLog cfg) ∧
    ∀ call ∈ calls, ∃ msg q, dnsWireParseQuestion msg = .ok (some q) ∧ call.qname = q.qname ∧ call.qtype = q.qtype

/-- Logging an accepted question, or none. -/
theorem Logged.logQuestion {N : Nat} {p : Proxy N} (h : Logged cfg p.log) {msg : List Byte} {question : Option DnsWireQuestion}
    (parsed : dnsWireParseQuestion msg = .ok question) (time : Option Int) (client : SockAddr) (result : QueryResult) :
    Logged cfg (p.logQuestion cfg time client question result).log := by
  cases question with
  | none => exact h
  | some q =>
    cases time with
    | none => exact h
    | some timeUs =>
      obtain ⟨calls, left, accepted⟩ := h
      refine ⟨calls ++ [.ofQuestion parsed timeUs client result], ?_, ?_⟩
      · rw [List.foldl_append, ← left]
        rfl
      · intro call member
        rcases List.mem_append.mp member with before | now
        · exact accepted call before
        · rw [List.mem_singleton.mp now]
          exact ⟨msg, q, parsed, rfl, rfl⟩

theorem Logged.forwardOrRefuse {N : Nat} {env : Env} {p p' : Proxy N} {sock : ListenSock} {client : SockAddr}
    {buf msg : List Byte} {n : Nat} {question : Option DnsWireQuestion} {acts : List (Action N)} (h : Logged cfg p.log)
    (parsed : dnsWireParseQuestion msg = .ok question)
    (handled : forwardOrRefuse cfg env p sock client buf n question = (p', acts)) : Logged cfg p'.log := by
  unfold Dns.forwardOrRefuse at handled
  split at handled
  · cases handled
    apply Logged.logQuestion _ parsed
    exact h
  · cases handled
    apply Logged.logQuestion _ parsed
    exact h

theorem Logged.client {N : Nat} {env : Env} {p p' : Proxy N} {sock : ListenSock} {client : SockAddr} {data : List Byte}
    {stale : Fin dnsWireMaxMsgLen → Byte} {acts : List (Action N)} (h : Logged cfg p.log)
    (handled : handleClientDatagram cfg bs env p sock client data stale = .ok (p', acts)) : Logged cfg p'.log := by
  cases handleClientDatagram_turn handled with
  | empty _ => exact h
  | passed parsed _ passed =>
    apply Logged.forwardOrRefuse _ parsed passed
    exact h
  | blocked parsed _ =>
    apply Logged.logQuestion _ parsed
    exact h

theorem Logged.sweepSlot {N : Nat} {env : Env} {p p' : Proxy N} {slot : Fin N} {acts : List (Action N)}
    (h : Logged cfg p.log) (swept : sweepSlot cfg env p slot = .ok (p', acts)) : Logged cfg p'.log := by
  have timed {q : Proxy N} (timed : timeOutSlot cfg env p slot = .ok q) : Logged cfg q.log := by
    unfold timeOutSlot at timed
    simp only [bind, Except.bind] at timed
    split at timed
    · cases timed
    rename_i parsed
    cases timed
    exact h.logQuestion parsed _ _ _
  unfold Dns.sweepSlot at swept
  dsimp only at swept
  split at swept
  · simp only [bind, Except.bind] at swept
    split at swept
    · cases swept
    rename_i done
    have kept := timed done
    split at swept
    · cases swept
      exact kept
    · cases swept
      exact kept
  · cases swept
    exact h

theorem Logged.sweepSlots {N : Nat} {env : Env} {p p' : Proxy N} {slots : List (Fin N)} {acts : List (Action N)}
    (h : Logged cfg p.log) (swept : sweepSlots cfg env p slots = .ok (p', acts)) : Logged cfg p'.log := by
  induction slots generalizing p acts with
  | nil =>
    cases swept
    exact h
  | cons slot slots ih =>
    obtain ⟨p₁, sent, rest, here, there, -⟩ := sweepSlots_cons swept
    exact ih (h.sweepSlot here) there

/-- **In every state of every run the log is what calls for accepted questions left**, so it reads as `query_log_latest` says. -/
theorem logged_run {p : Proxy cfg.maxPending} (run : AnyRun cfg bs upstreamSock past p) : Logged cfg p.log := by
  apply run.invariant (fun _ p => Logged cfg p.log)
  · exact ⟨[], rfl, nofun⟩
  · intro past p input p' acts _ h _ taken
    obtain ⟨env, input⟩ := input
    cases input with
    | client sock addr data stale => exact h.client taken
    | upstream data stale =>
      cases handleUpstreamDatagram_turn (Except.ok.inj taken) with
      | dropped _ => exact h
      | relayed _ _ _ => exact h
    | sweep => exact h.sweepSlots taken
    | applyUpstreamConfig =>
      cases taken
      exact h

end

end EspAdblocker.Dns
