import EspAdblocker.Dns.Ledger

/-!
# Whose answer a client receives

The slot index is the only thing that ties an upstream reply to a query, and a
slot is given to the next query as soon as it is free. A reply therefore reaches
the client it is for exactly when its query is the last one that was forwarded
from the slot; a late reply to an earlier one is relayed to another client.
-/

namespace EspAdblocker.Dns

open EspAdblocker.Lib EspAdblocker.Storage

/-- The datagram carries the transaction id of the query and asks its question. -/
structure ReplyTo (reply query : List Byte) : Prop where
  readable : 2 ≤ reply.length
  carried : 2 ≤ query.length
  txid : dnsWireGetTxid reply = dnsWireGetTxid query
  question : question reply = question query

instance (reply query : List Byte) : Decidable (ReplyTo reply query) :=
  decidable_of_iff (2 ≤ reply.length ∧ 2 ≤ query.length ∧ dnsWireGetTxid reply = dnsWireGetTxid query ∧
      question reply = question query)
    ⟨fun ⟨readable, carried, txid, same⟩ => ⟨readable, carried, txid, same⟩,
      fun reply => ⟨reply.readable, reply.carried, reply.txid, reply.question⟩⟩

/-- An upstream datagram is a reply to a query that was forwarded before. -/
def Replies {N : Nat} (past : List (Turn (Env × Input) (Action N))) (_ : Proxy N) (input : Env × Input) : Prop :=
  match input.2 with
  | .upstream data _ => ∃ f ∈ (ledger past).forwarded, ReplyTo (data.take dnsWireMaxMsgLen) f.query
  | _ => True

/-- The runs of the task whose upstream datagrams are replies, late, repeated or reordered as they may be. -/
abbrev ReplyRun (cfg : Kconfig) (bs : Bsearch) (upstreamSock : Int) :=
  Handler.Run (turn cfg bs) Replies (dnsProxyStart cfg upstreamSock)

/-! ## What the ledger knows of a slot -/

section

variable {N : Nat}

/-- The queries forwarded are the datagrams received, and a slot holds the last one forwarded from it. -/
structure Traced (L : Ledger N) : Prop where
  stored : ∀ {f}, f ∈ L.forwarded →
    ∃ r, L.received[f.id]? = some r ∧ f.query = dnsWireSetTxid r.data (BitVec.ofNat 16 f.slot)
  once : (L.forwarded.map Forwarded.id).Nodup
  sent : ∀ {slot id}, L.holder slot = some id → ∃ f ∈ L.forwarded, f.slot = slot ∧ f.id = id
  latest : ∀ {slot id}, L.holder slot = some id → ∀ f ∈ L.forwarded, f.slot = slot → f.id ≤ id

theorem Traced.id_lt {L : Ledger N} (h : Traced L) {f : Forwarded N} (member : f ∈ L.forwarded) :
    f.id < L.received.length := by
  obtain ⟨r, known, -⟩ := h.stored member
  exact (List.getElem?_eq_some_iff.mp known).1

/-- What changes neither the queries forwarded nor the slots, but for freeing some. -/
theorem Traced.of_frees {L L' : Ledger N} (h : Traced L) (forwarded : L'.forwarded = L.forwarded)
    (received : ∀ {id : Nat} {r}, L.received[id]? = some r → L'.received[id]? = some r)
    (frees : ∀ {slot id}, L'.holder slot = some id → L.holder slot = some id) : Traced L' where
  stored member := by
    rw [forwarded] at member
    obtain ⟨r, known, same⟩ := h.stored member
    exact ⟨r, received known, same⟩
  once := by
    rw [forwarded]
    exact h.once
  sent held := by
    rw [forwarded]
    exact h.sent (frees held)
  latest held := by
    rw [forwarded]
    exact h.latest (frees held)

theorem Traced.settle {L : Ledger N} (h : Traced L) (slot : Fin N) (a : Action N) : Traced (L.settle slot a) := by
  rw [Ledger.settle]
  split
  · exact h.of_frees rfl id id
  · refine h.of_frees rfl id fun {other id} held => ?_
    dsimp only at held
    by_cases here : other = slot
    · subst here
      rw [Function.update_self] at held
      cases held
    · rwa [Function.update_of_ne here] at held

theorem Traced.forward {L : Ledger N} (h : Traced L) {r : ClientDatagram} {slot : Fin N} {q : PendingQuery}
    (holds : Holds slot r q) : Traced (L.turn (some r) [.forward slot q.query]) := by
  refine ⟨?_, ?_, ?_, ?_⟩
  · intro f member
    rw [Ledger.forwarded_forward] at member
    rcases List.mem_append.mp member with before | now
    · obtain ⟨r', known, same⟩ := h.stored before
      exact ⟨r', received_of_receive _ known, same⟩
    · rw [List.mem_singleton.mp now]
      exact ⟨r, received_current L r, holds.query⟩
  · rw [Ledger.forwarded_forward, List.map_append, List.map_singleton, List.nodup_append]
    refine ⟨h.once, List.nodup_singleton _, fun id before id' now => ?_⟩
    obtain ⟨f, member, rfl⟩ := List.mem_map.mp before
    rw [List.mem_singleton.mp now]
    exact Nat.ne_of_lt (h.id_lt member)
  · intro other id held
    rw [Ledger.forwarded_forward]
    by_cases here : other = slot
    · subst here
      rw [Ledger.holder_forward_self] at held
      exact ⟨_, List.mem_append_right _ (List.mem_singleton_self _), rfl, Option.some.inj held⟩
    · rw [Ledger.holder_forward_other L r here] at held
      obtain ⟨f, member, same⟩ := h.sent held
      exact ⟨f, List.mem_append_left _ member, same⟩
  · intro other id held f member same
    rw [Ledger.forwarded_forward] at member
    by_cases here : other = slot
    · subst here
      rw [Ledger.holder_forward_self] at held
      rw [← Option.some.inj held]
      rcases List.mem_append.mp member with before | now
      · exact Nat.le_of_lt (h.id_lt before)
      · rw [List.mem_singleton.mp now]
    · rw [Ledger.holder_forward_other L r here] at held
      rcases List.mem_append.mp member with before | now
      · exact h.latest held f before same
      · rw [List.mem_singleton.mp now] at same
        exact absurd same.symm here

/-- An answer given at once changes no slot. -/
theorem Traced.receive {L : Ledger N} (h : Traced L) (arrival : Option ClientDatagram) : Traced (L.receive arrival) :=
  h.of_frees rfl (received_of_receive arrival) id

theorem Traced.step {cfg : Kconfig} {env : Env} {L : Ledger N} {p p' : Proxy N} {arrival : Option ClientDatagram}
    {acts : List (Action N)} (h : Traced L) (step : Step cfg env p arrival acts p') : Traced (L.turn arrival acts) := by
  cases step with
  | idle same =>
    rw [Ledger.turn_nil]
    exact h
  | blocked txid same => exact (h.receive _).of_frees rfl id id
  | @refused r _ full same =>
    have entered := h.receive (some r)
    rw [Ledger.turn, List.foldl_cons, List.foldl_nil, Ledger.act]
    split
    · exact entered.of_frees rfl id id
    · exact entered.of_frees rfl id id
  | forward free holds sent takes => exact h.forward holds
  | relayed | timedOut | switched =>
    rw [Ledger.turn, Ledger.receive_none]
    exact h.settle _ _
  | reconfigured same reset =>
    rw [Ledger.turn, Ledger.receive_none]
    exact h

theorem Traced.steps {cfg : Kconfig} {env : Env} {L : Ledger N} {p p' : Proxy N} {arrival : Option ClientDatagram}
    {acts : List (Action N)} (h : Traced L) (steps : Steps cfg env p arrival acts p') : Traced (L.turn arrival acts) := by
  induction steps with
  | single step => exact h.step step
  | more before step ih =>
    rw [Ledger.turn_append]
    exact ih.step step

end

/-! ## Over whole runs -/

section

variable {cfg : Kconfig} {bs : Bsearch} {upstreamSock : Int} {past : List (Turn (Env × Input) (Action cfg.maxPending))}
  {p : Proxy cfg.maxPending}

theorem traced_run (run : ProxyRun cfg bs upstreamSock past p) : Traced (ledger past) := by
  refine run.invariant (fun past _ => Traced (ledger past)) ?_ ?_
  · exact ⟨nofun, List.nodup_nil, nofun, nofun⟩
  · intro past p input p' acts _ kept readable taken
    rw [ledger_append]
    exact kept.steps (turn_steps readable taken)

/-- Replies can carry a transaction id. -/
theorem ReplyRun.proxyRun (run : ReplyRun cfg bs upstreamSock past p) : ProxyRun cfg bs upstreamSock past p := by
  refine run.mono fun past p input replies => ?_
  obtain ⟨env, input⟩ := input
  cases input with
  | upstream data stale =>
    obtain ⟨f, -, reply⟩ := replies
    have readable := reply.readable
    rw [List.length_take] at readable
    exact readable.trans (Nat.min_le_right _ _)
  | client | sweep | applyUpstreamConfig => trivial

/-- The reply goes to the client whose datagram the slot holds, as a reply to that datagram. -/
structure OwnReply {N : Nat} (L : Ledger N) (id : Nat) (slot : Fin N) (reply : ClientDatagram) : Prop where
  held : L.holder slot = some id
  client : ∃ r, L.received[id]? = some r ∧ reply.sock = r.sock ∧ reply.addr = r.addr ∧ ReplyTo reply.data r.data

/-- No client receives the answer to another query. -/
def RepliesReachOwn (cfg : Kconfig) (bs : Bsearch) (upstreamSock : Int) : Prop :=
  ∀ past p env data stale p' acts, ReplyRun cfg bs upstreamSock past p →
    turn cfg bs p (env, .upstream data stale) = .ok (p', acts) →
    ∀ f ∈ (ledger past).forwarded, ReplyTo (data.take dnsWireMaxMsgLen) f.query →
      ∀ slot sock addr bytes, .relayed slot sock addr bytes ∈ acts → OwnReply (ledger past) f.id slot ⟨sock, addr, bytes⟩

/-- The query is the last one forwarded from the slot that the reply names. -/
def LastFromSlot {N : Nat} (L : Ledger N) (reply : List Byte) (f : Forwarded N) : Prop :=
  (dnsWireGetTxid reply).toNat = f.slot ∧ ∀ g ∈ L.forwarded, g.slot = f.slot → g.id ≤ f.id

/-- **A relayed reply reaches its own client exactly when its query is the last one forwarded from the slot.** -/
theorem relayed_reply_is_own_iff (run : ReplyRun cfg bs upstreamSock past p) {env : Env} {data : List Byte}
    {stale : Fin dnsWireMaxMsgLen → Byte} {p' : Proxy cfg.maxPending} {acts : List (Action cfg.maxPending)}
    (taken : turn cfg bs p (env, .upstream data stale) = .ok (p', acts)) {f : Forwarded cfg.maxPending}
    (sent : f ∈ (ledger past).forwarded) (reply : ReplyTo (data.take dnsWireMaxMsgLen) f.query) {slot : Fin cfg.maxPending}
    {sock : ListenSock} {addr : SockAddr} {bytes : List Byte} (relayed : .relayed slot sock addr bytes ∈ acts) :
    OwnReply (ledger past) f.id slot ⟨sock, addr, bytes⟩ ↔
      LastFromSlot (ledger past) (data.take dnsWireMaxMsgLen) f := by
  have conserved := conserved_run run.proxyRun
  have traced := traced_run run.proxyRun
  obtain ⟨-, rfl⟩ | ⟨slot', named, waiting, -, -, rfl⟩ := handleUpstreamDatagram_cases (Except.ok.inj taken)
  · cases relayed
  rw [dnsWireGetTxid_recvBuf stale reply.readable] at named
  rw [List.mem_singleton, Action.relayed.injEq] at relayed
  obtain ⟨rfl, rfl, rfl, rfl⟩ := relayed
  obtain ⟨id, r, held, known, holds⟩ := conserved.held waiting
  constructor
  · intro own
    obtain ⟨g, member, here, same⟩ := traced.sent own.held
    have this_one : g = f := List.inj_on_of_nodup_map traced.once member sent same
    subst this_one
    exact ⟨by rw [named, here], fun g' member' here' => traced.latest own.held g' member' (here'.trans here)⟩
  · rintro ⟨inSlot, last⟩
    have here : f.slot = slot := Fin.ext (inSlot.symm.trans named)
    obtain ⟨g, member, there, same⟩ := traced.sent held
    have this_one : id = f.id := by
      have before := last g member (there.trans here.symm)
      have after := traced.latest held f sent here
      omega
    subst this_one
    obtain ⟨r', known', query⟩ := traced.stored sent
    obtain rfl : r = r' := Option.some.inj (known.symm.trans known')
    have carried : 2 ≤ r.data.length := by
      have := reply.carried
      rwa [query, length_dnsWireSetTxid] at this
    refine ⟨held, r, known, holds.sock, holds.addr, ?_, carried, ?_, ?_⟩
    · rw [length_dnsWireSetTxid]
      exact reply.readable
    · rw [dnsWireGetTxid_set reply.readable, holds.txid carried]
    · rw [question_dnsWireSetTxid, reply.question, query, question_dnsWireSetTxid]

end

/-- A query for the address of a name of one letter. -/
def letterQuery (hi lo letter : Byte) : List Byte :=
  [hi, lo, 0x01#8, 0x00#8, 0#8, 1#8, 0#8, 0#8, 0#8, 0#8, 0#8, 0#8, 1#8, letter, 0#8, 0#8, 1#8, 0#8, 1#8]

/-- One client asks for `a`. -/
def askA : Env × Input := (quietEnv 0, .client .v4 (clientAt 5000#16) (letterQuery 0x12#8 0x34#8 0x61#8) fun _ => 0#8)

/-- The reply to that query as it was forwarded from slot 0. -/
def replyA : List Byte := letterQuery 0#8 0#8 0x61#8

/-- A reply that comes in time goes to its client. -/
theorem prompt_reply_is_own : ∃ past p, ReplyRun oneSlot .binary 3 past p ∧
    OwnReply (ledger past) 0 (0 : Fin oneSlot.maxPending) ⟨.v4, clientAt 5000#16, letterQuery 0x12#8 0x34#8 0x61#8⟩ := by
  have computed : (Handler.exec (turn oneSlot .binary) (dnsProxyStart oneSlot 3) [askA]).map (fun done =>
      ((ledger done.2).forwarded,
        (turn oneSlot .binary done.1 (quietEnv 1, .upstream replyA fun _ => 0#8)).map Prod.snd)) =
      .ok ([⟨0, 0, replyA⟩], .ok [.relayed 0 .v4 (clientAt 5000#16) (letterQuery 0x12#8 0x34#8 0x61#8)]) := by
    decide +kernel
  obtain ⟨⟨p, past⟩, done, found⟩ := exists_of_map_eq_ok computed
  obtain ⟨forwarded, relays⟩ := Prod.mk.inj found
  obtain ⟨⟨p', acts⟩, taken, sends⟩ := exists_of_map_eq_ok relays
  dsimp only at forwarded taken sends
  subst sends
  have run : ReplyRun oneSlot .binary 3 past p := Handler.run_exec .start (by simp [askA, Replies]) done
  have sent : (⟨0, 0, replyA⟩ : Forwarded oneSlot.maxPending) ∈ (ledger past).forwarded := by
    rw [forwarded]
    exact List.mem_singleton_self _
  have last : LastFromSlot (ledger past) (replyA.take dnsWireMaxMsgLen) ⟨0, 0, replyA⟩ := by
    refine ⟨rfl, fun g member _ => ?_⟩
    rw [forwarded, List.mem_singleton] at member
    rw [member]
  have own := relayed_reply_is_own_iff run taken sent (by decide +kernel) (List.mem_singleton_self _)
  exact ⟨past, p, run, own.mpr last⟩

/-- The query for `a` times out and another client asks for `b` before the reply to the first arrives. -/
def lateInputs : List (Env × Input) :=
  [askA, (quietEnv 3000000, .sweep),
    (quietEnv 3000001, .client .v6 (clientAt 5001#16) (letterQuery 0x56#8 0x78#8 0x62#8) fun _ => 0#8)]

/-- The late reply for `a` is relayed to the client that asked for `b`. -/
theorem late_reply_crosses : ¬ RepliesReachOwn oneSlot .binary 3 := by
  have computed : (Handler.exec (turn oneSlot .binary) (dnsProxyStart oneSlot 3) lateInputs).map (fun done =>
      ((ledger done.2).forwarded, (ledger done.2).holder 0,
        (turn oneSlot .binary done.1 (quietEnv 3000002, .upstream replyA fun _ => 0#8)).map Prod.snd)) =
      .ok ([⟨0, 0, replyA⟩, ⟨1, 0, letterQuery 0#8 0#8 0x62#8⟩], some 1,
        .ok [.relayed 0 .v6 (clientAt 5001#16) (letterQuery 0x56#8 0x78#8 0x61#8)]) := by
    decide +kernel
  obtain ⟨⟨p, past⟩, done, found⟩ := exists_of_map_eq_ok computed
  simp only [Prod.mk.injEq] at found
  obtain ⟨forwarded, held, relays⟩ := found
  obtain ⟨⟨p', acts⟩, taken, sends⟩ := exists_of_map_eq_ok relays
  dsimp only at sends
  subst sends
  have run : ReplyRun oneSlot .binary 3 past p :=
    Handler.run_exec .start (by simp [lateInputs, askA, Replies]) done
  have sent : (⟨0, 0, replyA⟩ : Forwarded oneSlot.maxPending) ∈ (ledger past).forwarded := by
    rw [forwarded]
    exact List.mem_cons_self ..
  intro reaches
  have own := reaches past p _ replyA _ p' _ run taken _ sent (by decide +kernel) 0 _ _ _ (List.mem_singleton_self _)
  exact absurd (held.symm.trans own.held) (by decide)

end EspAdblocker.Dns
