import EspAdblocker.Dns.Marking

/-!
# Reading only what was received

The receive buffers live on the stack, so behind the bytes of a datagram they
hold whatever was there before. The parser stops at the length it is given and
the replies cover what they send, but `dns_wire_get_txid` reads two bytes
whatever its length argument. A handler reads only bytes that were received
exactly when the datagram is not a single byte (`reads_received_iff`).
-/

namespace EspAdblocker.Dns

open EspAdblocker.Lib EspAdblocker.Storage

/-! ## What a handler reads -/

section

variable {N : Nat}

/-- The same input with another stack behind it. -/
def Input.withStale (stale : Fin dnsWireMaxMsgLen → Byte) : Input → Input
  | .client sock addr data _ => .client sock addr data stale
  | .upstream data _ => .upstream data stale
  | .sweep => .sweep
  | .applyUpstreamConfig => .applyUpstreamConfig

/-- What `recvfrom` or `recv` delivers: `recv` fails on a socket that is not open. -/
def Input.received (p : Proxy N) : Input → Option (List Byte)
  | .client _ _ data _ => some (data.take dnsWireMaxMsgLen)
  | .upstream data _ => if p.upstreamSock < 0 then none else some (data.take dnsWireMaxMsgLen)
  | .sweep | .applyUpstreamConfig => none

/-- The `len` with which `dns_wire_parse_question` calls `dns_wire_get_txid`, as its last step. -/
def parseTxidLens (msg : List Byte) : List Nat :=
  match dnsWireParseQuestion msg with
  | .ok (some _) => [msg.length]
  | _ => []

/-- The `len` with which `handle_client_datagram` calls it itself, for a message that is not blocked. -/
def queryTxidLens (bs : Bsearch) (d : Device) (msg : List Byte) : List Nat :=
  match dnsWireParseQuestion msg with
  | .ok (some q) => if blocks bs d q.qname = .ok false then [msg.length] else []
  | .ok none => [msg.length]
  | .error _ => []

/-- The `len` of every call of `dns_wire_get_txid` in a turn. -/
def txidLens (cfg : Kconfig) (bs : Bsearch) (env : Env) (p : Proxy N) : Input → List Nat
  | .client _ _ data _ =>
    let msg := data.take dnsWireMaxMsgLen
    if msg.length = 0 then [] else parseTxidLens msg ++ queryTxidLens bs env.device msg
  | .upstream data _ =>
    let msg := data.take dnsWireMaxMsgLen
    if msg.length = 0 ∨ p.upstreamSock < 0 then [] else [msg.length]
  | .sweep => (List.finRange N).flatMap fun slot =>
    if Expired cfg env.now (p.pending slot) then
      parseTxidLens ((timeoutReply (p.pending slot)).take (p.pending slot).queryLen)
    else []
  | .applyUpstreamConfig => []

theorem parseTxidLens_long {msg : List Byte} {len : Nat} (called : len ∈ parseTxidLens msg) : 2 ≤ len := by
  unfold parseTxidLens at called
  split at called
  · rename_i accepted
    obtain ⟨past, inside⟩ := questionEnd_bounds accepted
    rw [List.mem_singleton.mp called]
    omega
  · cases called

theorem queryTxidLens_eq {bs : Bsearch} {d : Device} {msg : List Byte} {len : Nat}
    (called : len ∈ queryTxidLens bs d msg) : len = msg.length := by
  unfold queryTxidLens at called
  split at called
  · split at called
    · exact List.mem_singleton.mp called
    · cases called
  · exact List.mem_singleton.mp called
  · cases called

/-! ## What does not depend on the stack -/

/-- A zero-address reply covers what it sends. -/
theorem zeroAnswer_stale {data : List Byte} (stale stale' : List Byte) {q : DnsWireQuestion}
    (accepted : dnsWireParseQuestion data = .ok (some q)) (answered : q.qtype = dnsTypeA ∨ q.qtype = dnsTypeAaaa) :
    let zero := dnsWireMakeZeroAnswer (data ++ stale) q.questionEnd dnsWireMaxMsgLen q.qtype
    let zero' := dnsWireMakeZeroAnswer (data ++ stale') q.questionEnd dnsWireMaxMsgLen q.qtype
    zero.1 = zero'.1 ∧ zero.2.take zero.1 = zero'.2.take zero'.1 := by
  obtain ⟨labels, qtype, qclass, rest, asks, rfl⟩ := dnsWireParseQuestion_iff.mp accepted
  obtain ⟨b0, b1, b2, b3, b4, b5, b6, b7, b8, b9, b10, b11, body, rfl⟩ := exists_header asks.header
  obtain ⟨-, rfl, fits⟩ := asks_cons_iff.mp asks
  simp only [asked] at answered ⊢
  simp only [List.cons_append, List.append_assoc]
  obtain ⟨length, bytes⟩ := zeroAnswer_bytes (rest ++ stale) answered fits
  obtain ⟨length', bytes'⟩ := zeroAnswer_bytes (rest ++ stale') answered fits
  rw [bytes, bytes', length, length']
  exact ⟨rfl, rfl⟩

/-- The reply to a blocked query. -/
theorem blockReply_stale {data : List Byte} (stale stale' : Fin dnsWireMaxMsgLen → Byte) (policy : BitVec 8)
    {q : DnsWireQuestion} (short : data.length ≤ dnsWireMaxMsgLen) (accepted : dnsWireParseQuestion data = .ok (some q)) :
    blockReply policy (recvBuf data stale) data.length q = blockReply policy (recvBuf data stale') data.length q := by
  have error (stale : Fin dnsWireMaxMsgLen → Byte) :
      (dnsWireMakeErrorResponse (recvBuf data stale) data.length dnsRcodeNxdomain).take data.length =
        dnsWireMakeErrorResponse data data.length dnsRcodeNxdomain := by
    rw [take_dnsWireMakeErrorResponse, recvBuf_eq short, List.take_left]
  unfold blockReply
  rw [error stale, error stale']
  by_cases answered : q.qtype = dnsTypeA ∨ q.qtype = dnsTypeAaaa
  · obtain ⟨length, bytes⟩ := zeroAnswer_stale ((List.ofFn stale).drop data.length) ((List.ofFn stale').drop data.length)
      accepted answered
    rw [← recvBuf_eq short, ← recvBuf_eq short] at length bytes
    dsimp only
    rw [bytes, length]
  · rw [dnsWireMakeZeroAnswer_other answered, dnsWireMakeZeroAnswer_other answered]
    simp only [gt_iff_lt, Nat.lt_irrefl, if_false]

/-- A query that is not blocked, when its transaction id was received. -/
theorem forwardOrRefuse_stale (cfg : Kconfig) (env : Env) (p : Proxy N) (sock : ListenSock) (client : SockAddr)
    {data : List Byte} (stale stale' : Fin dnsWireMaxMsgLen → Byte) (question : Option DnsWireQuestion)
    (long : 2 ≤ (data.take dnsWireMaxMsgLen).length) :
    forwardOrRefuse cfg env p sock client (recvBuf data stale) (data.take dnsWireMaxMsgLen).length question =
      forwardOrRefuse cfg env p sock client (recvBuf data stale') (data.take dnsWireMaxMsgLen).length question := by
  unfold forwardOrRefuse
  dsimp only
  rw [take_dnsWireMakeErrorResponse, take_dnsWireMakeErrorResponse, take_recvBuf, take_recvBuf,
    dnsWireGetTxid_recvBuf stale long, dnsWireGetTxid_recvBuf stale' long]

/-- `handle_client_datagram`. -/
theorem handleClientDatagram_stale (cfg : Kconfig) (bs : Bsearch) (env : Env) (p : Proxy N) (sock : ListenSock)
    (client : SockAddr) {data : List Byte} (stale stale' : Fin dnsWireMaxMsgLen → Byte)
    (several : (data.take dnsWireMaxMsgLen).length ≠ 1) :
    handleClientDatagram cfg bs env p sock client data stale = handleClientDatagram cfg bs env p sock client data stale' := by
  unfold handleClientDatagram
  dsimp only
  split
  · rfl
  rename_i nonempty
  rw [take_recvBuf, take_recvBuf]
  have long : 2 ≤ (data.take dnsWireMaxMsgLen).length := by omega
  rcases parsed : dnsWireParseQuestion (data.take dnsWireMaxMsgLen) with fault | (_ | q)
  · simp only [bind, Except.bind]
  · simp only [bind, Except.bind]
    rw [forwardOrRefuse_stale cfg env _ sock client stale stale' none long]
  · have reply := blockReply_stale stale stale' env.device.nvs.policy (length_take_le data) parsed
    rw [recvBuf_take, recvBuf_take] at reply
    simp only [bind, Except.bind, tryBlock, reply]
    rcases blocks bs env.device q.qname with fault | (_ | _)
    · rfl
    · simp only [Bool.false_eq_true, if_false, pure, Except.pure]
      rw [forwardOrRefuse_stale cfg env _ sock client stale stale' (some q) long]
    · rfl

/-- `handle_upstream_datagram`. -/
theorem handleUpstreamDatagram_stale (p : Proxy N) {data : List Byte} (stale stale' : Fin dnsWireMaxMsgLen → Byte)
    (several : 0 ≤ p.upstreamSock → (data.take dnsWireMaxMsgLen).length ≠ 1) :
    handleUpstreamDatagram p data stale = handleUpstreamDatagram p data stale' := by
  unfold handleUpstreamDatagram
  dsimp only
  split
  · rfl
  rename_i delivered
  have long : 2 ≤ (data.take dnsWireMaxMsgLen).length := by
    have := several (by omega)
    omega
  simp only [take_dnsWireSetTxid, take_recvBuf, dnsWireGetTxid_recvBuf stale long, dnsWireGetTxid_recvBuf stale' long]

end

/-! ## Turns -/

/-- A turn reads only bytes that were received: nothing it does depends on the
stack, and no transaction id is read from less than two bytes. -/
structure ReadsReceived (cfg : Kconfig) (bs : Bsearch) (p : Proxy cfg.maxPending) (env : Env) (input : Input) : Prop where
  stale : ∀ stale stale', turn cfg bs p (env, input.withStale stale) = turn cfg bs p (env, input.withStale stale')
  txid : ∀ len ∈ txidLens cfg bs env p input, 2 ≤ len

/-- A client's datagram has its transaction id looked up in all of it, unless that is a single byte. -/
theorem txidLens_client_iff {N : Nat} (cfg : Kconfig) (bs : Bsearch) (p : Proxy N) (env : Env) (sock : ListenSock)
    (addr : SockAddr) (data : List Byte) (stale : Fin dnsWireMaxMsgLen → Byte) :
    (∀ len ∈ txidLens cfg bs env p (.client sock addr data stale), 2 ≤ len) ↔
      (data.take dnsWireMaxMsgLen).length ≠ 1 := by
  constructor
  · intro long single
    have short : dnsWireParseQuestion (data.take dnsWireMaxMsgLen) = .ok none := by
      rw [dnsWireParseQuestion, single]
      rfl
    have called : 1 ∈ txidLens cfg bs env p (.client sock addr data stale) := by
      simp only [txidLens, parseTxidLens, queryTxidLens, short, single]
      decide
    exact absurd (long 1 called) (by decide)
  · intro several len called
    simp only [txidLens] at called
    split at called
    · cases called
    rcases List.mem_append.mp called with parsing | handling
    · exact parseTxidLens_long parsing
    · rw [queryTxidLens_eq handling]
      omega

/-- A reply has its transaction id looked up in all of it, once the socket is open. -/
theorem txidLens_upstream_iff {N : Nat} (cfg : Kconfig) (bs : Bsearch) (p : Proxy N) (env : Env) (data : List Byte)
    (stale : Fin dnsWireMaxMsgLen → Byte) :
    (∀ len ∈ txidLens cfg bs env p (.upstream data stale), 2 ≤ len) ↔
      (0 ≤ p.upstreamSock → (data.take dnsWireMaxMsgLen).length ≠ 1) := by
  constructor
  · intro long opened single
    have called : 1 ∈ txidLens cfg bs env p (.upstream data stale) := by
      simp only [txidLens, single]
      rw [if_neg (by omega)]
      exact List.mem_singleton_self _
    exact absurd (long 1 called) (by decide)
  · intro several len called
    simp only [txidLens] at called
    split at called
    · cases called
    · rw [List.mem_singleton.mp called]
      have := several (by omega)
      omega

theorem txidLens_sweep {N : Nat} (cfg : Kconfig) (bs : Bsearch) (p : Proxy N) (env : Env) :
    ∀ len ∈ txidLens cfg bs env p .sweep, 2 ≤ len := by
  intro len called
  obtain ⟨slot, -, called⟩ := List.mem_flatMap.mp called
  split at called
  · exact parseTxidLens_long called
  · cases called

/-- **A turn reads only what was received exactly when it did not receive a single byte.** -/
theorem reads_received_iff (cfg : Kconfig) (bs : Bsearch) (p : Proxy cfg.maxPending) (env : Env) (input : Input) :
    ReadsReceived cfg bs p env input ↔ ∀ msg, input.received p = some msg → msg.length ≠ 1 := by
  cases input with
  | client sock addr data stale =>
    have here : (∀ msg, Input.received p (.client sock addr data stale) = some msg → msg.length ≠ 1) ↔
        (data.take dnsWireMaxMsgLen).length ≠ 1 := by
      simp [Input.received]
    rw [here]
    constructor
    · exact fun reads => (txidLens_client_iff cfg bs p env sock addr data stale).mp reads.txid
    · intro several
      constructor
      · intro stale stale'
        exact handleClientDatagram_stale cfg bs env p sock addr stale stale' several
      · exact (txidLens_client_iff cfg bs p env sock addr data stale).mpr several
  | upstream data stale =>
    have here : (∀ msg, Input.received p (.upstream data stale) = some msg → msg.length ≠ 1) ↔
        (0 ≤ p.upstreamSock → (data.take dnsWireMaxMsgLen).length ≠ 1) := by
      simp [Input.received]
    rw [here]
    constructor
    · exact fun reads => (txidLens_upstream_iff cfg bs p env data stale).mp reads.txid
    · intro several
      constructor
      · intro stale stale'
        exact congrArg Except.ok (handleUpstreamDatagram_stale p stale stale' several)
      · exact (txidLens_upstream_iff cfg bs p env data stale).mpr several
  | sweep =>
    apply iff_of_true
    · exact ⟨fun _ _ => rfl, txidLens_sweep cfg bs p env⟩
    · intro msg arrived
      cases arrived
  | applyUpstreamConfig =>
    apply iff_of_true
    · exact ⟨fun _ _ => rfl, fun len called => absurd called List.not_mem_nil⟩
    · intro msg arrived
      cases arrived

/-- In every state of every run, every turn reads only what was received. -/
def TurnsReadReceived (cfg : Kconfig) (bs : Bsearch) (upstreamSock : Int) : Prop :=
  ∀ past p, AnyRun cfg bs upstreamSock past p → ∀ env input, ReadsReceived cfg bs p env input

/-- One query waits in slot 0. A reply of the single byte 0 completes it when the
stack holds a 0 behind, and is dropped when the stack holds a 1. -/
theorem stale_byte_picks_slot : ¬ TurnsReadReceived oneSlot .binary 3 := by
  have computed : (Handler.exec (turn oneSlot .binary) (dnsProxyStart oneSlot 3) [askA]).map (fun done =>
      ((turn oneSlot .binary done.1 (quietEnv 1, .upstream [0#8] fun _ => 0#8)).map Prod.snd,
        (turn oneSlot .binary done.1 (quietEnv 1, .upstream [0#8] fun _ => 1#8)).map Prod.snd)) =
      .ok (.ok [.relayed 0 .v4 (clientAt 5000#16) [0x12#8]], .ok []) := by
    decide +kernel
  obtain ⟨⟨p, past⟩, done, found⟩ := exists_of_map_eq_ok computed
  obtain ⟨completes, drops⟩ := Prod.mk.inj found
  dsimp only at completes drops
  have run : AnyRun oneSlot .binary 3 past p := Handler.run_exec .start (fun _ _ _ _ => trivial) done
  intro reads
  have same := (reads past p run (quietEnv 1) (.upstream [0#8] fun _ => 0#8)).stale (fun _ => 0#8) fun _ => 1#8
  simp only [Input.withStale] at same
  rw [same, drops] at completes
  cases completes

end EspAdblocker.Dns
