import EspAdblocker.Dns.Grammar
import EspAdblocker.Dns.Ledger

/-!
# What is passed on

The receive buffers are exactly as long as the longest message, so a datagram
that was cut off cannot be told from one that fills them. What a turn passes on
is the whole datagram exactly when the datagram fits, or is not passed on at all
(`passes_whole_iff`).
-/

namespace EspAdblocker.Dns

open EspAdblocker.Lib EspAdblocker.Storage

section

variable {N : Nat}

/-- The datagram a turn receives. -/
def Input.datagram : Input → Option (List Byte)
  | .client _ _ data _ => some data
  | .upstream data _ => some data
  | .sweep | .applyUpstreamConfig => none

/-- Whether a datagram is passed on. -/
def Action.passes : Action N → Bool
  | .forward _ _ | .relayed _ _ _ _ => true
  | .blocked _ _ _ | .refused _ _ _ | .timedOut _ _ _ _ | .failedOver | .reconfigured => false

/-- What a turn forwards or relays is the datagram it received, which is not too
long, with another transaction id. -/
structure PassesWhole (p : Proxy N) (input : Input) (acts : List (Action N)) : Prop where
  forwards : ∀ (slot : Fin N) bytes, .forward slot bytes ∈ acts → ∃ sock addr data stale, input = .client sock addr data stale ∧
    data.length ≤ dnsWireMaxMsgLen ∧ bytes = dnsWireSetTxid data (BitVec.ofNat 16 slot)
  relays : ∀ (slot : Fin N) sock addr bytes, .relayed slot sock addr bytes ∈ acts → ∃ data stale, input = .upstream data stale ∧
    data.length ≤ dnsWireMaxMsgLen ∧ bytes = dnsWireSetTxid data (p.pending slot).clientTxid

theorem PassesWhole.of_none {p : Proxy N} {input : Input} {acts : List (Action N)}
    (nothing : ∀ a ∈ acts, a.passes = false) : PassesWhole p input acts := by
  constructor
  · intro slot bytes sent
    cases nothing _ sent
  · intro slot sock addr bytes sent
    cases nothing _ sent

/-- The datagram is passed on: a query finds a free slot and is not blocked, a
reply names a slot in use. -/
def PassedOn (bs : Bsearch) (env : Env) (p : Proxy N) : Input → Prop
  | .client _ _ data _ => (∃ slot, (p.pending slot).inUse = false) ∧
    ∀ q, dnsWireParseQuestion (data.take dnsWireMaxMsgLen) = .ok (some q) → blocks bs env.device q.qname ≠ .ok true
  | .upstream data _ => 0 ≤ p.upstreamSock ∧ ∃ slot, (dnsWireGetTxid data).toNat = slot.val ∧ (p.pending slot).inUse = true
  | .sweep | .applyUpstreamConfig => False

/-! ## Queries -/

/-- What is sent for a query: it is forwarded when it is passed on, and answered otherwise. -/
def SentFor (bs : Bsearch) (env : Env) (p : Proxy N) (sock : ListenSock) (client : SockAddr) (data : List Byte)
    (stale : Fin dnsWireMaxMsgLen → Byte) (acts : List (Action N)) : Prop :=
  (PassedOn bs env p (.client sock client data stale) ∧
      ∃ slot : Fin N, acts = [.forward slot (dnsWireSetTxid (data.take dnsWireMaxMsgLen) (BitVec.ofNat 16 slot))]) ∨
    (¬ PassedOn bs env p (.client sock client data stale) ∧ ∀ a ∈ acts, a.passes = false)

/-- A query that is not blocked is forwarded from a free slot, or refused. -/
theorem forwardOrRefuse_sent {cfg : Kconfig} {bs : Bsearch} {env : Env} {p p₁ p' : Proxy N} {sock : ListenSock}
    {client : SockAddr} {data : List Byte} {stale : Fin dnsWireMaxMsgLen → Byte} {question : Option DnsWireQuestion}
    {acts : List (Action N)} (same : p₁.pending = p.pending)
    (allowed : ∀ q, dnsWireParseQuestion (data.take dnsWireMaxMsgLen) = .ok (some q) →
      blocks bs env.device q.qname ≠ .ok true)
    (handled : forwardOrRefuse cfg env p₁ sock client (recvBuf data stale) (data.take dnsWireMaxMsgLen).length question =
      (p', acts)) :
    SentFor bs env p sock client data stale acts := by
  unfold forwardOrRefuse at handled
  split at handled
  · rename_i full
    cases handled
    refine .inr ⟨fun passed => ?_, fun a sent => ?_⟩
    · obtain ⟨⟨slot, free⟩, -⟩ := passed
      rw [← same, findFreeSlot_none full slot] at free
      cases free
    · rw [List.mem_singleton.mp sent]
      rfl
  · rename_i slot found
    cases handled
    have free := findFreeSlot_some found
    rw [same] at free
    refine .inl ⟨⟨⟨slot, free⟩, allowed⟩, slot, ?_⟩
    rw [PendingQuery.query, take_dnsWireSetTxid, take_recvBuf, writeAt, List.take_zero, List.nil_append, List.take_left]

/-- `handle_client_datagram` on a datagram that is not empty. -/
theorem handleClientDatagram_sent {cfg : Kconfig} {bs : Bsearch} {env : Env} {p p' : Proxy N} {sock : ListenSock}
    {client : SockAddr} {data : List Byte} {stale : Fin dnsWireMaxMsgLen → Byte} {acts : List (Action N)}
    (received : data ≠ []) (handled : handleClientDatagram cfg bs env p sock client data stale = .ok (p', acts)) :
    SentFor bs env p sock client data stale acts := by
  cases handleClientDatagram_turn handled with
  | empty nothing => exact absurd nothing received
  | passed _ allowed passed =>
    apply forwardOrRefuse_sent _ allowed passed
    rfl
  | @blocked q parsed decided =>
    refine .inr ⟨fun passed => passed.2 q parsed decided, fun a sent => ?_⟩
    rw [List.mem_singleton.mp sent]
    rfl

/-! ## Replies -/

/-- `handle_upstream_datagram` relays what is passed on and drops the rest. -/
theorem handleUpstreamDatagram_sent (bs : Bsearch) (env : Env) {p p' : Proxy N} {data : List Byte}
    {stale : Fin dnsWireMaxMsgLen → Byte} {acts : List (Action N)} (long : 2 ≤ data.length)
    (handled : handleUpstreamDatagram p data stale = (p', acts)) :
    (PassedOn bs env p (.upstream data stale) ∧ ∃ slot : Fin N, acts = [.relayed slot (p.pending slot).replySock
        (p.pending slot).clientAddr (dnsWireSetTxid (data.take dnsWireMaxMsgLen) (p.pending slot).clientTxid)]) ∨
      (¬ PassedOn bs env p (.upstream data stale) ∧ acts = []) := by
  have readable : 2 ≤ (data.take dnsWireMaxMsgLen).length := by
    rw [List.length_take, dnsWireMaxMsgLen]
    omega
  have txid : dnsWireGetTxid (recvBuf data stale) = dnsWireGetTxid data := by
    rw [dnsWireGetTxid_recvBuf stale readable, dnsWireGetTxid_take data (by decide)]
  cases handleUpstreamDatagram_turn handled with
  | dropped cause =>
    refine .inr ⟨?_, rfl⟩
    rintro ⟨opened, slot, named, waiting⟩
    rw [← txid] at named
    rcases cause with rfl | closed | idle
    · exact absurd long (by decide)
    · omega
    · rw [idle slot named] at waiting
      cases waiting
  | @relayed slot opened named waiting =>
    rw [txid] at named
    exact .inl ⟨⟨opened, slot, named, waiting⟩, slot, rfl⟩

/-! ## Sweeps -/

/-- A sweep passes nothing on. -/
theorem sweepSlots_acts {cfg : Kconfig} {env : Env} {p p' : Proxy N} {slots : List (Fin N)} {acts : List (Action N)}
    (swept : sweepSlots cfg env p slots = .ok (p', acts)) :
    ∀ a ∈ acts, a.passes = false := by
  induction slots generalizing p acts with
  | nil =>
    cases swept
    exact List.forall_mem_nil _
  | cons slot slots ih =>
    obtain ⟨p₁, sent, rest, here, there, rfl⟩ := sweepSlots_cons swept
    intro a member
    rcases List.mem_append.mp member with now | later
    · by_cases expired : Expired cfg env.now (p.pending slot)
      · obtain ⟨-, ⟨-, -, sent⟩ | ⟨-, -, sent⟩⟩ := sweepSlot_expired expired here
        · rw [sent, List.mem_singleton] at now
          rw [now]
          rfl
        · rw [sent, List.mem_cons, List.mem_singleton] at now
          rcases now with rfl | rfl <;> rfl
      · rw [sweepSlot_idle expired] at here
        cases here
        cases now
    · exact ih there a later

/-! ## Turns -/

/-- A forwarded query is whole exactly when it fits. -/
theorem whole_forward_iff {p : Proxy N} {sock : ListenSock} {addr : SockAddr} {data : List Byte}
    {stale : Fin dnsWireMaxMsgLen → Byte} (slot : Fin N) :
    PassesWhole p (.client sock addr data stale)
        [.forward slot (dnsWireSetTxid (data.take dnsWireMaxMsgLen) (BitVec.ofNat 16 slot))] ↔
      data.length ≤ dnsWireMaxMsgLen := by
  constructor
  · intro whole
    obtain ⟨_, _, _, _, same, short, -⟩ := whole.forwards slot _ (List.mem_singleton_self _)
    cases same
    exact short
  · intro short
    refine ⟨fun slot' bytes sent => ?_, fun _ _ _ _ sent => ?_⟩
    · cases List.mem_singleton.mp sent
      exact ⟨sock, addr, data, stale, rfl, short, by rw [List.take_of_length_le short]⟩
    · cases List.mem_singleton.mp sent

/-- A relayed reply is whole exactly when it fits. -/
theorem whole_relay_iff {p : Proxy N} {data : List Byte} {stale : Fin dnsWireMaxMsgLen → Byte} (slot : Fin N) :
    PassesWhole p (.upstream data stale) [.relayed slot (p.pending slot).replySock (p.pending slot).clientAddr
        (dnsWireSetTxid (data.take dnsWireMaxMsgLen) (p.pending slot).clientTxid)] ↔
      data.length ≤ dnsWireMaxMsgLen := by
  constructor
  · intro whole
    obtain ⟨_, _, same, short, -⟩ := whole.relays slot _ _ _ (List.mem_singleton_self _)
    cases same
    exact short
  · intro short
    refine ⟨fun _ _ sent => ?_, fun slot' sock addr bytes sent => ?_⟩
    · cases List.mem_singleton.mp sent
    · cases List.mem_singleton.mp sent
      exact ⟨data, stale, rfl, short, by rw [List.take_of_length_le short]⟩

/-- What is passed on is to fit, what is not need not. -/
theorem fits_or_kept_iff {bs : Bsearch} {env : Env} {p : Proxy N} {input : Input} {data : List Byte}
    (arrived : input.datagram = some data) (passed : PassedOn bs env p input) :
    (∀ bytes, input.datagram = some bytes → bytes.length ≤ dnsWireMaxMsgLen ∨ ¬ PassedOn bs env p input) ↔
      data.length ≤ dnsWireMaxMsgLen := by
  constructor
  · intro fits
    exact (fits data arrived).resolve_right (not_not.mpr passed)
  · intro short bytes arrived'
    obtain rfl : data = bytes := Option.some.inj (arrived.symm.trans arrived')
    exact .inl short

/-- **A turn passes datagrams on whole exactly when they fit** or are not passed on. -/
theorem passes_whole_iff {cfg : Kconfig} {bs : Bsearch} {env : Env} {p p' : Proxy cfg.maxPending} {input : Input}
    {acts : List (Action cfg.maxPending)} (taken : turn cfg bs p (env, input) = .ok (p', acts)) :
    PassesWhole p input acts ↔
      ∀ data, input.datagram = some data → data.length ≤ dnsWireMaxMsgLen ∨ ¬ PassedOn bs env p input := by
  cases input with
  | client sock addr data stale =>
    by_cases received : data = []
    · subst received
      cases taken
      refine iff_of_true (.of_none (List.forall_mem_nil _)) fun data arrived => ?_
      cases arrived
      exact .inl (Nat.zero_le _)
    obtain ⟨passed, slot, rfl⟩ | ⟨kept, others⟩ := handleClientDatagram_sent received taken
    · rw [fits_or_kept_iff (show Input.datagram _ = some data from rfl) passed]
      exact whole_forward_iff slot
    · exact iff_of_true (.of_none others) fun _ _ => .inr kept
  | upstream data stale =>
    have handled := Except.ok.inj taken
    by_cases readable : 2 ≤ data.length
    · obtain ⟨passed, slot, rfl⟩ | ⟨kept, rfl⟩ := handleUpstreamDatagram_sent bs env readable handled
      · rw [fits_or_kept_iff (show Input.datagram _ = some data from rfl) passed]
        exact whole_relay_iff slot
      · exact iff_of_true (.of_none (List.forall_mem_nil _)) fun _ _ => .inr kept
    · -- a datagram of one byte names its transaction with what the buffer held before
      have short : data.length ≤ dnsWireMaxMsgLen := by
        rw [dnsWireMaxMsgLen]
        omega
      refine iff_of_true ?_ fun data' arrived => ?_
      · obtain ⟨-, rfl⟩ | ⟨slot, -, -, -, -, rfl⟩ := handleUpstreamDatagram_cases handled
        · exact .of_none (List.forall_mem_nil _)
        · exact (whole_relay_iff slot).mpr short
      · cases arrived
        exact .inl short
  | sweep => exact iff_of_true (.of_none (sweepSlots_acts taken)) fun data arrived => by cases arrived
  | applyUpstreamConfig =>
    cases taken
    refine iff_of_true (.of_none fun a sent => ?_) fun data arrived => by cases arrived
    rw [List.mem_singleton.mp sent]
    rfl

end

theorem blocks_quietEnv (bs : Bsearch) (now : Int) (qname : List Byte) :
    blocks bs (quietEnv now).device qname = .ok false := rfl

/-- A query that fits is forwarded whole. -/
theorem short_query_whole : ∃ p acts, turn oneSlot .binary (dnsProxyStart oneSlot 3)
      (quietEnv 0, .client .v4 (clientAt 5000#16) (addressQuery [1#8, 0x61#8, 0#8]) fun _ => 0#8) = .ok (p, acts) ∧
    PassesWhole (dnsProxyStart oneSlot 3)
      (.client .v4 (clientAt 5000#16) (addressQuery [1#8, 0x61#8, 0#8]) fun _ => 0#8) acts := by
  obtain ⟨⟨p, acts⟩, taken⟩ := turn_total (fun qname => ⟨false, blocks_quietEnv .binary 0 qname⟩)
    (dnsProxyStart oneSlot 3) (.client .v4 (clientAt 5000#16) (addressQuery [1#8, 0x61#8, 0#8]) fun _ => 0#8)
  refine ⟨p, acts, taken, (passes_whole_iff taken).mpr fun data arrived => ?_⟩
  cases arrived
  exact .inl (by decide)

/-- A query that does not fit is forwarded in part when nothing blocks it. -/
theorem long_query_forwarded {data : List Byte} (long : dnsWireMaxMsgLen < data.length) :
    ∃ p acts, turn oneSlot .binary (dnsProxyStart oneSlot 3)
        (quietEnv 0, .client .v4 (clientAt 5000#16) data fun _ => 0#8) = .ok (p, acts) ∧
      ¬ PassesWhole (dnsProxyStart oneSlot 3) (.client .v4 (clientAt 5000#16) data fun _ => 0#8) acts := by
  obtain ⟨⟨p, acts⟩, taken⟩ := turn_total (fun qname => ⟨false, blocks_quietEnv .binary 0 qname⟩)
    (dnsProxyStart oneSlot 3) (.client .v4 (clientAt 5000#16) data fun _ => 0#8)
  refine ⟨p, acts, taken, fun whole => ?_⟩
  obtain ⟨passed, slot, rfl⟩ | ⟨kept, -⟩ := handleClientDatagram_sent (List.ne_nil_of_length_pos (by omega)) taken
  · exact absurd ((whole_forward_iff slot).mp whole) (Nat.not_le_of_lt long)
  · refine kept ⟨⟨0, rfl⟩, fun q _ => ?_⟩
    rw [blocks_quietEnv]
    decide

/-- A query for `a` of 513 bytes, as with a record behind the question. -/
def longQuery : List Byte :=
  addressQuery [1#8, 0x61#8, 0#8] ++ List.replicate 494 0#8

theorem length_longQuery : longQuery.length = 513 := by
  rw [longQuery, List.length_append, List.length_replicate]
  rfl

/-- As the first query of a run it is forwarded without its last byte. -/
theorem long_query_cut : ∃ p acts, turn oneSlot .binary (dnsProxyStart oneSlot 3)
      (quietEnv 0, .client .v4 (clientAt 5000#16) longQuery fun _ => 0#8) = .ok (p, acts) ∧
    ¬ PassesWhole (dnsProxyStart oneSlot 3) (.client .v4 (clientAt 5000#16) longQuery fun _ => 0#8) acts :=
  long_query_forwarded (by rw [length_longQuery]; decide)

end EspAdblocker.Dns
