import EspAdblocker.Dns.Wire
import EspAdblocker.Storage.DomainList
import EspAdblocker.Storage.Serving
import Mathlib.Data.List.FinRange

/-!
# `dns_proxy.c`

The proxy task: its static variables (`Proxy`), the blocking decision, the three
handlers and the reconfiguration. A handler takes what the outside contributes
to it (`Env`) and returns the next state with everything it sent, in order
(`Action`). The artifacts, the allowlist and the settings belong to other tasks
and enter as the device at that moment.
-/

namespace EspAdblocker.Dns

open EspAdblocker.Lib EspAdblocker.Storage

/-! ## State -/

/-- The `CONFIG_DNS_PROXY_*` values the task reads. -/
structure Kconfig where
  maxPending : Nat
  upstreamTimeoutMs : Int
  upstreamFailThreshold : Nat
  queryLogSize : Nat
  deriving DecidableEq, Repr

/-- `s_listen_sock_v4` and `s_listen_sock_v6`. -/
inductive ListenSock where
  | v4
  | v6
  deriving DecidableEq, Repr

/-- A `struct sockaddr_storage` with its length. -/
structure SockAddr where
  family : Nat
  addr : List Byte
  port : BitVec 16
  deriving DecidableEq, Repr

/-- `pending_query_t`. -/
structure PendingQuery where
  inUse : Bool := false
  replySock : ListenSock := .v4
  clientAddr : SockAddr := ⟨0, [], 0#16⟩
  clientTxid : BitVec 16 := 0#16
  sentAtUs : Int := 0
  queryLen : Nat := 0
  queryBuf : List Byte := List.replicate dnsWireMaxMsgLen 0#8
  deriving DecidableEq, Repr

/-- The message a pending query holds. -/
def PendingQuery.query (q : PendingQuery) : List Byte := q.queryBuf.take q.queryLen

/-- `dns_proxy_stats_t`. -/
structure DnsProxyStats where
  queriesTotal : BitVec 32 := 0#32
  queriesBlocked : BitVec 32 := 0#32
  queriesForwarded : BitVec 32 := 0#32
  queriesServfail : BitVec 32 := 0#32
  deriving DecidableEq, Repr

/-- `dns_proxy_query_result_t`. -/
inductive QueryResult where
  | forwarded
  | blocked
  | servfail
  deriving DecidableEq, Repr

/-- `AF_INET`. -/
def afInet : Nat := 2

/-- `AF_INET6`. -/
def afInet6 : Nat := 10

/-- `dns_client_addr_t`, with an array of 16 bytes. -/
structure DnsClientAddr where
  family : Nat := 0
  addr : List Byte := List.replicate 16 0#8
  deriving DecidableEq, Repr

/-- `dns_proxy_query_log_entry_t`; `qname` are the bytes before the terminator. -/
structure QueryLogEntry where
  timeUs : Int := 0
  clientAddr : DnsClientAddr := {}
  qtype : BitVec 16 := 0#16
  result : QueryResult := .forwarded
  qname : List Byte := []
  deriving DecidableEq, Repr

/-- `s_query_log` with its two indices. -/
structure QueryLog where
  entries : List QueryLogEntry
  next : Nat := 0
  count : Nat := 0
  deriving DecidableEq, Repr

/-- `BLOCKED_HISTORY_HOURS`. -/
def blockedHistoryHours : Nat := 24

/-- `s_blocked_hour_count` and `s_blocked_hour_id`. -/
structure BlockedHistory where
  hourCount : List (BitVec 32) := List.replicate blockedHistoryHours 0#32
  hourId : List Int := List.replicate blockedHistoryHours 0
  deriving DecidableEq, Repr

/-- The static variables of the proxy task, with `N` pending slots. -/
structure Proxy (N : Nat) where
  pending : Fin N → PendingQuery
  upstreamSock : Int := -1
  upstreamIndex : Nat := 0
  consecutiveTimeouts : Nat := 0
  stats : DnsProxyStats := {}
  history : BlockedHistory := {}
  log : QueryLog

/-- What the outside contributes to one turn of the task. -/
structure Env where
  /-- What the other tasks have loaded and stored. -/
  device : Device
  /-- `esp_timer_get_time()`. -/
  now : Int
  /-- `time(NULL)`. -/
  unixTime : Nat
  /-- What the `i`-th `log_query` of the turn reads from the timer; `none` when it does not get the mutex. -/
  logTime : Nat → Option Int
  /-- The results of the `i`-th `socket()` and of the `connect()` after it. -/
  attempt : Nat → Int × Bool

/-- What the task sends, and the upstream switches it makes. -/
inductive Action (N : Nat) where
  | forward (slot : Fin N) (bytes : List Byte)
  | blocked (sock : ListenSock) (addr : SockAddr) (bytes : List Byte)
  | refused (sock : ListenSock) (addr : SockAddr) (bytes : List Byte)
  | relayed (slot : Fin N) (sock : ListenSock) (addr : SockAddr) (bytes : List Byte)
  | timedOut (slot : Fin N) (sock : ListenSock) (addr : SockAddr) (bytes : List Byte)
  | failedOver
  | reconfigured
  deriving DecidableEq, Repr

/-! ## Bookkeeping -/

/-- `record_blocked_for_rolling_window`. -/
def recordBlocked (history : BlockedHistory) (unixTime : Nat) : BlockedHistory :=
  let hourId : Int := (unixTime / 3600 : Nat)
  let idx := unixTime / 3600 % blockedHistoryHours
  let history :=
    if history.hourId.getD idx 0 ≠ hourId then
      { hourId := history.hourId.set idx hourId, hourCount := history.hourCount.set idx 0#32 }
    else history
  { history with hourCount := history.hourCount.set idx (history.hourCount.getD idx 0#32 + 1#32) }

/-- `sockaddr_to_client_addr`. -/
def sockaddrToClientAddr (sa : SockAddr) : DnsClientAddr :=
  if sa.family = afInet then { family := afInet, addr := writeAt (List.replicate 16 0#8) 0 (sa.addr.take 4) }
  else if sa.family = afInet6 then { family := afInet6, addr := writeAt (List.replicate 16 0#8) 0 (sa.addr.take 16) }
  else {}

/-- `log_query`, which does nothing without the mutex. -/
def logQuery (cfg : Kconfig) (log : QueryLog) (time : Option Int) (client : SockAddr) (qname : List Byte)
    (qtype : BitVec 16) (result : QueryResult) : QueryLog :=
  match time with
  | none => log
  | some timeUs =>
    let entry : QueryLogEntry :=
      { timeUs, clientAddr := sockaddrToClientAddr client, qtype, result
        qname := (cstr qname).take (dnsWireMaxNameLen - 1) }
    { entries := log.entries.set log.next entry
      next := (log.next + 1) % cfg.queryLogSize
      count := if log.count < cfg.queryLogSize then log.count + 1 else log.count }

/-- `s_upstream_sock` after `connect_upstream_socket`. -/
def connectUpstreamSocket (attempt : Int × Bool) : Int :=
  if attempt.1 ≥ 0 then if attempt.2 then attempt.1 else -1 else attempt.1

/-! ## Blocking -/

/-- `is_allowlisted`. The comparisons may follow any of the pointers, so all of them count. -/
def isAllowlisted (d : Device) (qname : List Byte) : Except Fault Bool :=
  if d.statics.allowlistCount = 0 then .ok false
  else
    match d.statics.allowlistEntries with
    | none => .error .deadStorage
    | some entries => do
      let strings ← d.strings entries d.statics.allowlistCount
      return strings.any fun entry => strcmp (cstr qname) entry = 0

/-- The decision of `try_block`. -/
def blocks (bs : Bsearch) (d : Device) (qname : List Byte) : Except Fault Bool :=
  if d.nvs.blockingEnabled = true ∧ d.statics.bloomReady = true then do
    if ← d.bloomTest qname then
      if ← isAllowlisted d qname then return false
      else
        let confirm ← d.sdStorageConfirm bs qname
        return confirm != .notBlocked
    else return false
  else .ok false

/-- `APP_CONFIG_BLOCK_ZERO_IP`. -/
def appConfigBlockZeroIp : BitVec 8 := 1#8

/-- The reply of `try_block` to a message of `n` bytes in `buf`. -/
def blockReply (policy : BitVec 8) (buf : List Byte) (n : Nat) (q : DnsWireQuestion) : List Byte :=
  if policy = appConfigBlockZeroIp then
    let (newLen, zero) := dnsWireMakeZeroAnswer buf q.questionEnd dnsWireMaxMsgLen q.qtype
    if newLen > 0 then zero.take newLen else (dnsWireMakeErrorResponse buf n dnsRcodeNxdomain).take n
  else (dnsWireMakeErrorResponse buf n dnsRcodeNxdomain).take n

/-- `try_block`: the reply it sent, or `none` when it returns false. -/
def tryBlock (bs : Bsearch) (d : Device) (buf : List Byte) (n : Nat) (q : DnsWireQuestion) :
    Except Fault (Option (List Byte)) := do
  if ← blocks bs d q.qname then return some (blockReply d.nvs.policy buf n q) else return none

theorem blocks_of_confirm {bs : Bsearch} {d : Device} {qname : List Byte} {answer listed : Bool}
    (enabled : d.nvs.blockingEnabled = true) (ready : d.statics.bloomReady = true) (tests : d.bloomTest qname = .ok answer)
    (notAllowlisted : isAllowlisted d qname = .ok false)
    (confirms : d.sdStorageConfirm bs qname = .ok (if listed then .blocked else .notBlocked)) :
    blocks bs d qname = .ok (answer && listed) := by
  rw [blocks, if_pos ⟨enabled, ready⟩, tests]
  cases answer with
  | false => rfl
  | true =>
    simp only [bind, Except.bind, if_true, notAllowlisted, Bool.false_eq_true, if_false, confirms]
    cases listed <;> rfl

theorem tryBlock_of_blocks {bs : Bsearch} {d : Device} {buf : List Byte} {n : Nat} {q : DnsWireQuestion} {b : Bool}
    (decided : blocks bs d q.qname = .ok b) :
    tryBlock bs d buf n q = .ok (if b then some (blockReply d.nvs.policy buf n q) else none) := by
  rw [tryBlock, decided]
  cases b <;> rfl

/-- `try_block` returns false exactly when it is decided so. -/
theorem tryBlock_eq_none_iff {bs : Bsearch} {d : Device} {buf : List Byte} {n : Nat} {q : DnsWireQuestion} :
    tryBlock bs d buf n q = .ok none ↔ blocks bs d q.qname = .ok false := by
  rw [tryBlock]
  rcases blocks bs d q.qname with fault | _ | _ <;> simp [bind, Except.bind, pure, Except.pure]

/-- An image that asks for no hashes, so every name passes it. -/
def noHashesImage : List Byte :=
  leBytes 4 0x4D4F4C42 ++ leBytes 2 1 ++ leBytes 2 0 ++ leBytes 8 8 ++ List.replicate 29 0#8

/-- A device that has such an image loaded, and no list to confirm a name with. -/
def noHashesDevice (nvs : Nvs) : Device where
  nvs
  partSize _ := none
  flash _ := []
  files _ := none
  seed := noHashesImage
  statics := { bloomHeader := some .seed, bloomBits := some .seed, bloomReady := true, bloomFromSeed := true }

theorem bloomTest_noHashes {d : Device} (header : d.statics.bloomHeader = some .seed)
    (bits : d.statics.bloomBits = some .seed) (image : d.seed = noHashesImage) (qname : List Byte) :
    d.bloomTest qname = .ok true := by
  have noHashes : (Bloom.BloomHeader.ofBytes noHashesImage).kHashes = 0#32 := by decide
  rw [Device.bloomTest, header, bits, Option.bind_some, Device.regionBytes, image]
  exact Bloom.bloomFilterTest_of_no_hashes noHashes qname

/-- On such a device every name is blocked. -/
theorem blocks_noHashesDevice (bs : Bsearch) {nvs : Nvs} (enabled : nvs.blockingEnabled = true) (qname : List Byte) :
    blocks bs (noHashesDevice nvs) qname = .ok true := by
  rw [blocks, if_pos ⟨enabled, rfl⟩, bloomTest_noHashes rfl rfl rfl]
  rfl

/-! ## The handlers -/

section

variable {N : Nat}

/-- `find_free_slot`. -/
def findFreeSlot (p : Proxy N) : Option (Fin N) :=
  (List.finRange N).find? fun i => !(p.pending i).inUse

/-- Store into one pending slot. -/
def Proxy.setPending (p : Proxy N) (slot : Fin N) (q : PendingQuery) : Proxy N :=
  { p with pending := Function.update p.pending slot q }

/-- The receive buffer after `recv`: the first bytes of the datagram over what was there. -/
def recvBuf (data : List Byte) (stale : Fin dnsWireMaxMsgLen → Byte) : List Byte :=
  data.take dnsWireMaxMsgLen ++ (List.ofFn stale).drop (data.take dnsWireMaxMsgLen).length

/-- Add a log entry for a message whose question was parsed. -/
def Proxy.logQuestion (cfg : Kconfig) (p : Proxy N) (time : Option Int) (client : SockAddr)
    (question : Option DnsWireQuestion) (result : QueryResult) : Proxy N :=
  match question with
  | none => p
  | some q => { p with log := logQuery cfg p.log time client q.qname q.qtype result }

/-- `handle_client_datagram` for a query that is not blocked: forward it, or
refuse it when the pending table is full. -/
def forwardOrRefuse (cfg : Kconfig) (env : Env) (p : Proxy N) (sock : ListenSock) (client : SockAddr) (buf : List Byte)
    (n : Nat) (question : Option DnsWireQuestion) : Proxy N × List (Action N) :=
  match findFreeSlot p with
  | none =>
    let reply := dnsWireMakeErrorResponse buf n dnsRcodeServfail
    let p := { p with stats.queriesServfail := p.stats.queriesServfail + 1#32 }
    (p.logQuestion cfg (env.logTime 0) client question .servfail, [.refused sock client (reply.take n)])
  | some slot =>
    let queryBuf := dnsWireSetTxid (writeAt (p.pending slot).queryBuf 0 (buf.take n)) (BitVec.ofNat 16 slot)
    let q : PendingQuery :=
      { inUse := true, replySock := sock, clientAddr := client, clientTxid := dnsWireGetTxid buf, sentAtUs := env.now
        queryLen := n, queryBuf }
    let p := { p.setPending slot q with stats.queriesForwarded := p.stats.queriesForwarded + 1#32 }
    (p.logQuestion cfg (env.logTime 0) client question .forwarded, [.forward slot q.query])

/-- `handle_client_datagram`. -/
def handleClientDatagram (cfg : Kconfig) (bs : Bsearch) (env : Env) (p : Proxy N) (sock : ListenSock) (client : SockAddr)
    (data : List Byte) (stale : Fin dnsWireMaxMsgLen → Byte) : Except Fault (Proxy N × List (Action N)) := do
  let buf := recvBuf data stale
  let n := (data.take dnsWireMaxMsgLen).length
  if n = 0 then return (p, [])
  else
    let p := { p with stats.queriesTotal := p.stats.queriesTotal + 1#32 }
    match ← dnsWireParseQuestion (buf.take n) with
    | none => return forwardOrRefuse cfg env p sock client buf n none
    | some q =>
      match ← tryBlock bs env.device buf n q with
      | none => return forwardOrRefuse cfg env p sock client buf n (some q)
      | some reply =>
        let p := { p with
          stats.queriesBlocked := p.stats.queriesBlocked + 1#32
          history := recordBlocked p.history env.unixTime }
        return (p.logQuestion cfg (env.logTime 0) client (some q) .blocked, [.blocked sock client reply])

/-- `handle_upstream_datagram`; `recv` on a socket that was never opened fails. -/
def handleUpstreamDatagram (p : Proxy N) (data : List Byte) (stale : Fin dnsWireMaxMsgLen → Byte) :
    Proxy N × List (Action N) :=
  let buf := recvBuf data stale
  let n := (data.take dnsWireMaxMsgLen).length
  if n = 0 ∨ p.upstreamSock < 0 then (p, [])
  else
    let slotTxid := (dnsWireGetTxid buf).toNat
    if inside : slotTxid < N then
      let q := p.pending ⟨slotTxid, inside⟩
      if q.inUse = true then
        let p := p.setPending ⟨slotTxid, inside⟩ { q with inUse := false }
        ({ p with consecutiveTimeouts := 0 },
          [.relayed ⟨slotTxid, inside⟩ q.replySock q.clientAddr ((dnsWireSetTxid buf q.clientTxid).take n)])
      else (p, [])
    else (p, [])

/-- `fail_over_upstream`. -/
def failOverUpstream (p : Proxy N) (attempt : Int × Bool) : Proxy N :=
  { p with
    upstreamIndex := if p.upstreamIndex = 0 then 1 else 0
    consecutiveTimeouts := 0
    upstreamSock := connectUpstreamSocket attempt }

/-- Whether the slot has waited for `CONFIG_DNS_PROXY_UPSTREAM_TIMEOUT_MS`. -/
def Expired (cfg : Kconfig) (now : Int) (q : PendingQuery) : Prop :=
  q.inUse = true ∧ ¬ now - q.sentAtUs < cfg.upstreamTimeoutMs * 1000

instance (cfg : Kconfig) (now : Int) (q : PendingQuery) : Decidable (Expired cfg now q) :=
  inferInstanceAs (Decidable (_ ∧ _))

/-- The reply to a query that timed out, over its own buffer. -/
def timeoutReply (q : PendingQuery) : List Byte :=
  dnsWireMakeErrorResponse (dnsWireSetTxid q.queryBuf q.clientTxid) q.queryLen dnsRcodeServfail

/-- `sweep_timeouts` on a slot that has expired, up to the check of the threshold. -/
def timeOutSlot (cfg : Kconfig) (env : Env) (p : Proxy N) (slot : Fin N) : Except Fault (Proxy N) := do
  let q := p.pending slot
  let question ← dnsWireParseQuestion ((timeoutReply q).take q.queryLen)
  let p := p.logQuestion cfg (env.logTime slot) q.clientAddr question .servfail
  let p := p.setPending slot { q with inUse := false, queryBuf := timeoutReply q }
  return { p with
    stats.queriesServfail := p.stats.queriesServfail + 1#32
    consecutiveTimeouts := p.consecutiveTimeouts + 1 }

/-- One turn of the loop of `sweep_timeouts`. -/
def sweepSlot (cfg : Kconfig) (env : Env) (p : Proxy N) (slot : Fin N) : Except Fault (Proxy N × List (Action N)) := do
  let q := p.pending slot
  if Expired cfg env.now q then
    let sent := Action.timedOut slot q.replySock q.clientAddr ((timeoutReply q).take q.queryLen)
    let p ← timeOutSlot cfg env p slot
    if p.consecutiveTimeouts ≥ cfg.upstreamFailThreshold then
      return (failOverUpstream p (env.attempt slot), [sent, .failedOver])
    else return (p, [sent])
  else return (p, [])

/-- The loop of `sweep_timeouts` over the slots that are left. -/
def sweepSlots (cfg : Kconfig) (env : Env) (p : Proxy N) : List (Fin N) → Except Fault (Proxy N × List (Action N))
  | [] => .ok (p, [])
  | slot :: slots => do
    let (p, sent) ← sweepSlot cfg env p slot
    let (p, rest) ← sweepSlots cfg env p slots
    return (p, sent ++ rest)

/-- `sweep_timeouts`. -/
def sweepTimeouts (cfg : Kconfig) (env : Env) (p : Proxy N) : Except Fault (Proxy N × List (Action N)) :=
  sweepSlots cfg env p (List.finRange N)

/-- `dns_proxy_apply_upstream_config`. -/
def dnsProxyApplyUpstreamConfig (env : Env) (p : Proxy N) : Proxy N × List (Action N) :=
  ({ p with upstreamIndex := 0, consecutiveTimeouts := 0, upstreamSock := connectUpstreamSocket (env.attempt 0) },
    [.reconfigured])

end

/-! ## Turns -/

/-- What starts a turn. -/
inductive Input where
  | client (sock : ListenSock) (addr : SockAddr) (data : List Byte) (stale : Fin dnsWireMaxMsgLen → Byte)
  | upstream (data : List Byte) (stale : Fin dnsWireMaxMsgLen → Byte)
  | sweep
  | applyUpstreamConfig

/-- One turn of the task, or a reconfiguration between two. -/
def turn (cfg : Kconfig) (bs : Bsearch) (p : Proxy cfg.maxPending) (input : Env × Input) :
    Except Fault (Proxy cfg.maxPending × List (Action cfg.maxPending)) :=
  match input.2 with
  | .client sock addr data stale => handleClientDatagram cfg bs input.1 p sock addr data stale
  | .upstream data stale => .ok (handleUpstreamDatagram p data stale)
  | .sweep => sweepTimeouts cfg input.1 p
  | .applyUpstreamConfig => .ok (dnsProxyApplyUpstreamConfig input.1 p)

/-- The statics when `dns_proxy_start` has returned. -/
def dnsProxyStart (cfg : Kconfig) (upstreamSock : Int) : Proxy cfg.maxPending where
  pending _ := {}
  upstreamSock
  log := { entries := List.replicate cfg.queryLogSize {} }

end EspAdblocker.Dns
