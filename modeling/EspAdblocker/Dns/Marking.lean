import EspAdblocker.Dns.BlockReply
import EspAdblocker.Dns.Replies
import Mathlib.Tactic.IntervalCases

/-!
# The replies the proxy makes itself

Blocked queries, refused ones and those that time out are answered by rewriting
the client's own datagram. The rewriting of `dns_wire_make_error_response` leaves
a datagram without a whole header as it is, and its callers send it all the same.
A reply is marked as a response and differs from the datagram it answers exactly
when that datagram has a header and is not such a response already; the runs in
which all replies are marked are the runs whose turns answer only such datagrams.
-/

namespace EspAdblocker.Dns

open EspAdblocker.Lib EspAdblocker.Storage

/-! ## Marked replies -/

/-- A reply to a datagram: a response with its header, which is not the datagram again. -/
structure Marked (data bytes : List Byte) (code : Byte) : Prop where
  header : dnsWireHeaderLen ≤ bytes.length
  response : qrFlag bytes = true
  rcode : rcode bytes = code
  differs : bytes ≠ data

/-- The message has the flags that an error response with this RCODE has. -/
structure HasReplyFlags (msg : List Byte) (code : Byte) : Prop where
  qr : qrFlag msg = true
  aa : aaFlag msg = false
  tc : tcFlag msg = false
  fourth : msg.getD 3 0#8 = 0x80#8 ||| code

/-- The message is the zero-address reply to its own question. -/
structure IsZeroAnswer (q : DnsWireQuestion) (msg : List Byte) : Prop where
  flags : HasReplyFlags msg 0#8
  counts : (msg.drop 6).take 6 = [0x00#8, 0x01#8, 0x00#8, 0x00#8, 0x00#8, 0x00#8]
  answer : msg.drop q.questionEnd = zeroAnswer q.qtype (rdLength q.qtype)

/-- Only the bits that are set or cleared can change. -/
theorem responseFlags_eq_self_iff (b : Byte) :
    responseFlags b = b ↔ b.getLsbD 7 = true ∧ b.getLsbD 2 = false ∧ b.getLsbD 1 = false := by
  constructor
  · intro same
    obtain ⟨seven, two, one, -⟩ := responseFlags_bits b
    rw [same] at seven two one
    exact ⟨seven, two, one⟩
  · rintro ⟨seven, two, one⟩
    apply BitVec.eq_of_getLsbD_eq
    intro i small
    unfold responseFlags
    interval_cases i <;> simp_all

theorem hasReplyFlags_iff {msg : List Byte} {code : Byte} :
    HasReplyFlags msg code ↔ responseFlags (msg.getD 2 0#8) = msg.getD 2 0#8 ∧ msg.getD 3 0#8 = 0x80#8 ||| code := by
  rw [responseFlags_eq_self_iff]
  constructor
  · rintro ⟨qr, aa, tc, fourth⟩
    exact ⟨⟨qr, aa, tc⟩, fourth⟩
  · rintro ⟨⟨qr, aa, tc⟩, fourth⟩
    exact ⟨qr, aa, tc, fourth⟩

/-- The transaction id is none of the flags. -/
theorem hasReplyFlags_dnsWireSetTxid (msg : List Byte) (txid : BitVec 16) (code : Byte) :
    HasReplyFlags (dnsWireSetTxid msg txid) code ↔ HasReplyFlags msg code := by
  have behind (i : Nat) (past : 2 ≤ i) : (dnsWireSetTxid msg txid).getD i 0#8 = msg.getD i 0#8 := by
    rw [List.getD_eq_getElem?_getD, dnsWireSetTxid, List.getElem?_set_ne (by omega), List.getElem?_set_ne (by omega),
      List.getD_eq_getElem?_getD]
  rw [hasReplyFlags_iff, hasReplyFlags_iff, behind 2 (by decide), behind 3 (by decide)]

theorem marked_cons_iff {b0 b1 b2 b3 : Byte} {body data : List Byte} {code : Byte} (nibble : code &&& 0x0F#8 = code)
    (header : dnsWireHeaderLen ≤ (b0 :: b1 :: b2 :: b3 :: body).length) :
    Marked data (b0 :: b1 :: responseFlags b2 :: (0x80#8 ||| code) :: body) code ↔
      b0 :: b1 :: responseFlags b2 :: (0x80#8 ||| code) :: body ≠ data := by
  constructor
  · exact Marked.differs
  · intro differs
    refine ⟨header, (responseFlags_bits b2).1, ?_, differs⟩
    show (0x80#8 ||| code) &&& 0x0F#8 = code
    rw [BitVec.and_or_distrib_right, nibble, show 0x80#8 &&& 0x0F#8 = 0#8 from rfl, BitVec.zero_or]

/-- An error response is marked exactly when it is made of a datagram with a header that is none yet. -/
theorem marked_errorResponse_iff {data : List Byte} {code : Byte} (nibble : code &&& 0x0F#8 = code) :
    Marked data (dnsWireMakeErrorResponse data data.length code) code ↔
      dnsWireHeaderLen ≤ data.length ∧ ¬ HasReplyFlags data code := by
  by_cases header : dnsWireHeaderLen ≤ data.length
  · obtain ⟨b0, b1, b2, b3, b4, b5, b6, b7, b8, b9, b10, b11, body, rfl⟩ := exists_header header
    rw [dnsWireMakeErrorResponse_cons header, nibble, marked_cons_iff nibble header, hasReplyFlags_iff]
    simp only [ne_eq, List.cons.injEq, true_and, and_true, List.getD_cons_succ, List.getD_cons_zero]
    constructor
    · rintro differs
      refine ⟨header, fun ⟨flags, fourth⟩ => differs ⟨flags, fourth.symm⟩⟩
    · rintro ⟨-, other⟩ ⟨flags, fourth⟩
      exact other ⟨flags, fourth.symm⟩
  · apply iff_of_false
    · intro marked
      apply header
      have long := marked.header
      rwa [dnsWireMakeErrorResponse, if_pos (Nat.lt_of_not_le header)] at long
    · exact fun long => header long.1

/-! ## Blocked queries -/

/-- The RCODE of the reply to a blocked question. -/
def blockRcode (policy : BitVec 8) (q : DnsWireQuestion) : Byte :=
  if policy = appConfigBlockZeroIp ∧ (q.qtype = dnsTypeA ∨ q.qtype = dnsTypeAaaa) then 0#8 else dnsRcodeNxdomain

/-- The datagram already is the reply to its question. -/
def IsBlockReply (policy : BitVec 8) (q : DnsWireQuestion) (msg : List Byte) : Prop :=
  if policy = appConfigBlockZeroIp ∧ (q.qtype = dnsTypeA ∨ q.qtype = dnsTypeAaaa) then IsZeroAnswer q msg
  else HasReplyFlags msg dnsRcodeNxdomain

/-- A zero-address reply is marked exactly when the datagram is not that reply already. -/
theorem marked_zeroAnswer_iff {data : List Byte} (stale : List Byte) {q : DnsWireQuestion}
    (accepted : dnsWireParseQuestion data = .ok (some q)) (answered : q.qtype = dnsTypeA ∨ q.qtype = dnsTypeAaaa) :
    let zero := dnsWireMakeZeroAnswer (data ++ stale) q.questionEnd dnsWireMaxMsgLen q.qtype
    0 < zero.1 ∧ (Marked data (zero.2.take zero.1) 0#8 ↔ ¬ IsZeroAnswer q data) := by
  obtain ⟨labels, qtype, qclass, rest, asks, rfl⟩ := dnsWireParseQuestion_iff.mp accepted
  obtain ⟨b0, b1, b2, b3, b4, b5, b6, b7, b8, b9, b10, b11, body, rfl⟩ := exists_header asks.header
  obtain ⟨-, rfl, fits⟩ := asks_cons_iff.mp asks
  simp only [asked] at answered ⊢
  simp only [List.cons_append, List.append_assoc]
  obtain ⟨length, bytes⟩ := zeroAnswer_bytes (rest ++ stale) answered fits
  have header : dnsWireHeaderLen ≤ (b0 :: b1 :: b2 :: b3 :: b4 :: b5 :: 0x00#8 :: 0x01#8 :: 0x00#8 :: 0x00#8 :: 0x00#8 ::
      0x00#8 :: (questionBytes labels qtype qclass ++ zeroAnswer qtype (rdLength qtype))).length := by
    simp only [dnsWireHeaderLen, List.length_cons]
    omega
  have stop : dnsWireHeaderLen + (wireName labels).length + 4 = (questionBytes labels qtype qclass).length + 12 := by
    rw [length_questionBytes, dnsWireHeaderLen]
    omega
  refine ⟨by rw [length, dnsWireHeaderLen]; omega, ?_⟩
  rw [bytes, show (0x80#8 : Byte) = 0x80#8 ||| 0#8 from rfl, marked_cons_iff rfl header, not_iff_not]
  simp only [List.cons.injEq, true_and, List.append_cancel_left_eq]
  constructor
  · rintro ⟨flags, fourth, rfl, rfl, rfl, rfl, rfl, rfl, rfl⟩
    refine ⟨hasReplyFlags_iff.mpr ⟨flags, fourth.symm⟩, rfl, ?_⟩
    dsimp only
    rw [stop]
    exact List.drop_left
  · rintro ⟨flags, counts, answer⟩
    obtain ⟨kept, fourth⟩ := hasReplyFlags_iff.mp flags
    simp only [List.drop_succ_cons, List.drop_zero, List.take_succ_cons, List.take_zero, List.cons.injEq, and_true] at counts
    dsimp only at answer
    rw [stop] at answer
    change List.drop (questionBytes labels qtype qclass).length (questionBytes labels qtype qclass ++ rest) = _ at answer
    rw [List.drop_left] at answer
    obtain ⟨rfl, rfl, rfl, rfl, rfl, rfl⟩ := counts
    exact ⟨kept, fourth.symm, rfl, rfl, rfl, rfl, rfl, rfl, answer.symm⟩

/-- The reply to a blocked query is marked exactly when the query is not that reply already. -/
theorem marked_blockReply_iff {data : List Byte} {stale : Fin dnsWireMaxMsgLen → Byte} {policy : BitVec 8}
    {q : DnsWireQuestion} (short : data.length ≤ dnsWireMaxMsgLen) (accepted : dnsWireParseQuestion data = .ok (some q)) :
    Marked data (blockReply policy (recvBuf data stale) data.length q) (blockRcode policy q) ↔
      ¬ IsBlockReply policy q data := by
  have whole := recvBuf_eq short stale
  have error : Marked data ((dnsWireMakeErrorResponse (recvBuf data stale) data.length dnsRcodeNxdomain).take data.length)
      dnsRcodeNxdomain ↔ ¬ HasReplyFlags data dnsRcodeNxdomain := by
    have header : dnsWireHeaderLen ≤ data.length := by
      obtain ⟨past, inside⟩ := questionEnd_bounds accepted
      rw [dnsWireHeaderLen]
      omega
    rw [take_dnsWireMakeErrorResponse, whole, List.take_left, marked_errorResponse_iff (by decide)]
    exact and_iff_right header
  unfold blockReply blockRcode IsBlockReply
  by_cases zeroIp : policy = appConfigBlockZeroIp
  · by_cases answered : q.qtype = dnsTypeA ∨ q.qtype = dnsTypeAaaa
    · obtain ⟨written, marked⟩ := marked_zeroAnswer_iff ((List.ofFn stale).drop data.length) accepted answered
      rw [← whole] at written marked
      rw [if_pos zeroIp, if_pos ⟨zeroIp, answered⟩, if_pos ⟨zeroIp, answered⟩]
      dsimp only
      rw [if_pos written]
      exact marked
    · have other : ¬ (policy = appConfigBlockZeroIp ∧ (q.qtype = dnsTypeA ∨ q.qtype = dnsTypeAaaa)) :=
        fun both => answered both.2
      rw [if_pos zeroIp, if_neg other, if_neg other, dnsWireMakeZeroAnswer_other answered]
      exact error
  · have other : ¬ (policy = appConfigBlockZeroIp ∧ (q.qtype = dnsTypeA ∨ q.qtype = dnsTypeAaaa)) :=
      fun both => zeroIp both.1
    rw [if_neg zeroIp, if_neg other, if_neg other]
    exact error

/-! ## What a turn sends -/

section

variable {N : Nat}

/-- Blocking lets the message through. -/
def LetThrough (bs : Bsearch) (d : Device) (msg : List Byte) : Prop :=
  ∀ q, dnsWireParseQuestion msg = .ok (some q) → blocks bs d q.qname ≠ .ok true

/-- What `handle_client_datagram` sends: a query is blocked, refused when the table is full, or forwarded. -/
inductive ClientActions (bs : Bsearch) (env : Env) (p : Proxy N) (r : ClientDatagram) (stale : Fin dnsWireMaxMsgLen → Byte) :
    List (Action N) → Prop where
  | blocked {q : DnsWireQuestion} : dnsWireParseQuestion r.data = .ok (some q) → blocks bs env.device q.qname = .ok true →
      ClientActions bs env p r stale
        [.blocked r.sock r.addr (blockReply env.device.nvs.policy (recvBuf r.data stale) r.data.length q)]
  | refused : LetThrough bs env.device r.data → (∀ slot, (p.pending slot).inUse = true) →
      ClientActions bs env p r stale [.refused r.sock r.addr r.servfail]
  | forwarded {slot : Fin N} {query : List Byte} : LetThrough bs env.device r.data → (p.pending slot).inUse = false →
      ClientActions bs env p r stale [.forward slot query]

/-- Cutting off what does not fit changes nothing in the buffer. -/
theorem recvBuf_take (data : List Byte) (stale : Fin dnsWireMaxMsgLen → Byte) :
    recvBuf (data.take dnsWireMaxMsgLen) stale = recvBuf data stale := by
  rw [recvBuf, List.take_take, Nat.min_self, recvBuf]

theorem forwardOrRefuse_acts {cfg : Kconfig} {bs : Bsearch} {env : Env} {p p₁ p' : Proxy N} {sock : ListenSock}
    {client : SockAddr} {data : List Byte} {stale : Fin dnsWireMaxMsgLen → Byte} {question : Option DnsWireQuestion}
    {acts : List (Action N)} (same : SameTable p p₁)
    (through : LetThrough bs env.device (data.take dnsWireMaxMsgLen))
    (handled : forwardOrRefuse cfg env p₁ sock client (recvBuf data stale) (data.take dnsWireMaxMsgLen).length question =
      (p', acts)) :
    ClientActions bs env p ⟨sock, client, data.take dnsWireMaxMsgLen⟩ stale acts := by
  cases forwardOrRefuse_step same handled with
  | blocked => 
    rw [forwardOrRefuse] at handled
    split at handled <;> cases handled
  | refused full => exact .refused through full
  | forward free => exact .forwarded through free

theorem handleClientDatagram_acts {cfg : Kconfig} {bs : Bsearch} {env : Env} {p p' : Proxy N} {sock : ListenSock}
    {client : SockAddr} {data : List Byte} {stale : Fin dnsWireMaxMsgLen → Byte} {acts : List (Action N)}
    (received : data ≠ []) (handled : handleClientDatagram cfg bs env p sock client data stale = .ok (p', acts)) :
    ClientActions bs env p ⟨sock, client, data.take dnsWireMaxMsgLen⟩ stale acts := by
  have counted : SameTable p p.counted := ⟨rfl, rfl⟩
  cases handleClientDatagram_turn handled with
  | empty nothing => exact absurd nothing received
  | passed _ through passed => exact forwardOrRefuse_acts counted through passed
  | blocked parsed decided =>
    have blocked : ClientActions bs env p ⟨sock, client, data.take dnsWireMaxMsgLen⟩ stale _ := .blocked parsed decided
    rwa [recvBuf_take] at blocked

/-! ## Whose query a slot holds -/

/-- An action of a turn that may have received a datagram: a slot is taken for it. -/
def takeSlot (arrival : Option ClientDatagram) (origins : Fin N → Option ClientDatagram) :
    Action N → Fin N → Option ClientDatagram
  | .forward slot _ => Function.update origins slot arrival
  | .blocked .. | .refused .. | .relayed .. | .timedOut .. | .failedOver | .reconfigured => origins

/-- The datagram each slot was last taken for. -/
def origins (past : List (Turn (Env × Input) (Action N))) : Fin N → Option ClientDatagram :=
  past.foldl (fun origins t => t.2.foldl (takeSlot t.1.2.arrival) origins) fun _ => none

theorem origins_append (past : List (Turn (Env × Input) (Action N))) (t : Turn (Env × Input) (Action N)) :
    origins (past ++ [t]) = t.2.foldl (takeSlot t.1.2.arrival) (origins past) := by
  rw [origins, List.foldl_append]
  rfl

/-- A slot in use holds the datagram it was taken for. -/
def SlotsHold (origins : Fin N → Option ClientDatagram) (p : Proxy N) : Prop :=
  ∀ slot, (p.pending slot).inUse = true → ∃ r, origins slot = some r ∧ Holds slot r (p.pending slot)

theorem SlotsHold.same {origins : Fin N → Option ClientDatagram} {p p' : Proxy N} (h : SlotsHold origins p)
    (same : p'.pending = p.pending) : SlotsHold origins p' := by
  intro slot waiting
  rw [same] at waiting ⊢
  exact h slot waiting

theorem SlotsHold.frees {origins : Fin N → Option ClientDatagram} {p p' : Proxy N} {slot : Fin N} (h : SlotsHold origins p)
    (frees : Frees p p' slot) : SlotsHold origins p' := by
  intro other waiting
  have there : other ≠ slot := by
    rintro rfl
    rw [frees.here] at waiting
    cases waiting
  rw [frees.others other there] at waiting ⊢
  exact h other waiting

theorem SlotsHold.step {cfg : Kconfig} {env : Env} {origins : Fin N → Option ClientDatagram} {p p' : Proxy N}
    {arrival : Option ClientDatagram} {acts : List (Action N)} (h : SlotsHold origins p)
    (step : Step cfg env p arrival acts p') : SlotsHold (acts.foldl (takeSlot arrival) origins) p' := by
  cases step with
  | idle same => exact h.same same.pending
  | blocked txid same => exact h.same same.pending
  | refused full same => exact h.same same.pending
  | @forward r slot q _ free holds sent takes =>
    intro other waiting
    by_cases here : other = slot
    · subst here
      exact ⟨r, Function.update_self _ _ _, by rwa [takes.here]⟩
    · rw [takes.others other here] at waiting ⊢
      obtain ⟨r', taken, stored⟩ := h other waiting
      exact ⟨r', (Function.update_of_ne here _ _).trans taken, stored⟩
  | relayed readable named waiting frees reset => exact h.frees frees
  | timedOut expired frees below counted => exact h.frees frees
  | switched expired frees reached reset => exact h.frees frees
  | reconfigured same reset => exact h.same same

theorem SlotsHold.sweep {cfg : Kconfig} {env : Env} {origins : Fin N → Option ClientDatagram} {p p' : Proxy N}
    {slots : List (Fin N)} {acts : List (Action N)} (h : SlotsHold origins p)
    (swept : sweepSlots cfg env p slots = .ok (p', acts)) : SlotsHold (acts.foldl (takeSlot none) origins) p' := by
  induction slots generalizing p acts origins with
  | nil =>
    cases swept
    exact h
  | cons slot slots ih =>
    obtain ⟨p₁, sent, rest, here, there, rfl⟩ := sweepSlots_cons swept
    rw [List.foldl_append]
    exact ih (h.step (sweepSlot_step here)) there

end

section

variable {cfg : Kconfig} {bs : Bsearch} {upstreamSock : Int} {past : List (Turn (Env × Input) (Action cfg.maxPending))}
  {p p' : Proxy cfg.maxPending} {env : Env} {input : Input} {acts : List (Action cfg.maxPending)}

/-- A turn keeps it, whatever the upstream sends. -/
theorem SlotsHold.turn {origins : Fin cfg.maxPending → Option ClientDatagram} (h : SlotsHold origins p)
    (taken : turn cfg bs p (env, input) = .ok (p', acts)) :
    SlotsHold (acts.foldl (takeSlot input.arrival) origins) p' := by
  cases input with
  | client sock addr data stale =>
    by_cases received : data = []
    · subst received
      cases taken
      exact h
    · rw [Input.arrival, if_neg received]
      exact h.step (handleClientDatagram_step received taken)
  | upstream data stale =>
    obtain ⟨same, rfl⟩ | ⟨slot, -, -, frees, -, rfl⟩ := handleUpstreamDatagram_cases (Except.ok.inj taken)
    · exact h.same same.pending
    · exact h.frees frees
  | sweep => exact h.sweep taken
  | applyUpstreamConfig =>
    cases taken
    exact h

/-- All runs of the task. -/
abbrev AnyRun (cfg : Kconfig) (bs : Bsearch) (upstreamSock : Int) :=
  Handler.Run (turn cfg bs) (fun _ _ _ => True) (dnsProxyStart cfg upstreamSock)

theorem slotsHold_run (run : AnyRun cfg bs upstreamSock past p) : SlotsHold (origins past) p := by
  apply run.invariant (fun past p => SlotsHold (origins past) p)
  · intro slot waiting
    cases waiting
  · intro past p input p' acts _ h _ taken
    rw [origins_append]
    exact h.turn taken

/-! ## The turns whose replies are marked -/

/-- The SERVFAIL reply to the message is marked: it has a header and is not such a reply already. -/
structure Refusable (msg : List Byte) : Prop where
  header : dnsWireHeaderLen ≤ msg.length
  fresh : ¬ HasReplyFlags msg dnsRcodeServfail

/-- A reply that the proxy makes itself is marked, with the RCODE meant for it and
against the datagram it answers. -/
def MarkedReply {N : Nat} (d : Device) (arrival : Option ClientDatagram) (origins : Fin N → Option ClientDatagram) :
    Action N → Prop
  | .blocked _ _ bytes => ∃ r q, arrival = some r ∧ dnsWireParseQuestion r.data = .ok (some q) ∧
      Marked r.data bytes (blockRcode d.nvs.policy q)
  | .refused _ _ bytes => ∃ r, arrival = some r ∧ Marked r.data bytes dnsRcodeServfail
  | .timedOut slot _ _ bytes => ∃ r, origins slot = some r ∧ Marked r.data bytes dnsRcodeServfail
  | .forward .. | .relayed .. | .failedOver | .reconfigured => True

/-- All replies of a turn are marked. -/
def TurnMarked {N : Nat} (past : List (Turn (Env × Input) (Action N))) (t : Turn (Env × Input) (Action N)) : Prop :=
  ∀ a ∈ t.2, MarkedReply t.1.1.device t.1.2.arrival (origins past) a

/-- The datagrams a turn is about to answer can be told from the replies: one that is blocked is not
its own reply, one that finds the table full and those that have expired are `Refusable`. -/
def AnswersFresh (cfg : Kconfig) (bs : Bsearch) (p : Proxy cfg.maxPending) (input : Env × Input) : Prop :=
  match input.2 with
  | .client .. => ∀ r, input.2.arrival = some r →
      (∀ q, dnsWireParseQuestion r.data = .ok (some q) → blocks bs input.1.device q.qname = .ok true →
        ¬ IsBlockReply input.1.device.nvs.policy q r.data) ∧
      (LetThrough bs input.1.device r.data → (∀ slot, (p.pending slot).inUse = true) → Refusable r.data)
  | .sweep => ∀ slot, Expired cfg input.1.now (p.pending slot) → Refusable (p.pending slot).query
  | .upstream .. | .applyUpstreamConfig => True

theorem marked_servfail_iff (r : ClientDatagram) : Marked r.data r.servfail dnsRcodeServfail ↔ Refusable r.data := by
  rw [ClientDatagram.servfail, marked_errorResponse_iff (by decide)]
  constructor
  · rintro ⟨header, fresh⟩
    exact ⟨header, fresh⟩
  · rintro ⟨header, fresh⟩
    exact ⟨header, fresh⟩

/-- The reply to an expired query is marked exactly when the query as it was stored is `Refusable`. -/
theorem marked_timeoutReply_iff {N : Nat} {slot : Fin N} {r : ClientDatagram} {q : PendingQuery} (holds : Holds slot r q) :
    Marked r.data ((timeoutReply q).take q.queryLen) dnsRcodeServfail ↔ Refusable q.query := by
  have stored : Refusable q.query ↔ Refusable r.data := by
    rw [holds.query]
    constructor
    · rintro ⟨header, fresh⟩
      rw [length_dnsWireSetTxid] at header
      rw [hasReplyFlags_dnsWireSetTxid] at fresh
      exact ⟨header, fresh⟩
    · rintro ⟨header, fresh⟩
      refine ⟨?_, ?_⟩
      · rwa [length_dnsWireSetTxid]
      · rwa [hasReplyFlags_dnsWireSetTxid]
  rw [stored]
  by_cases long : 2 ≤ r.data.length
  · rw [holds.timeoutReply long, marked_servfail_iff]
  · apply iff_of_false
    · intro marked
      have header := marked.header
      rw [List.length_take, holds.length, dnsWireHeaderLen] at header
      omega
    · intro refusable
      have header := refusable.header
      rw [dnsWireHeaderLen] at header
      omega

theorem timeoutAction_congr {N : Nat} {p₁ p₂ : Proxy N} {slot : Fin N} (same : p₂.pending slot = p₁.pending slot) :
    timeoutAction p₂ slot = timeoutAction p₁ slot := by
  rw [timeoutAction, same, timeoutAction]

/-- A sweep answers the queries that have expired, and no others. -/
theorem sweepSlots_sent {N : Nat} {p p' : Proxy N} {slots : List (Fin N)} {acts : List (Action N)} (nodup : slots.Nodup)
    (swept : sweepSlots cfg env p slots = .ok (p', acts)) :
    (∀ slot ∈ slots, Expired cfg env.now (p.pending slot) → timeoutAction p slot ∈ acts) ∧
      ∀ a ∈ acts, a = .failedOver ∨ ∃ slot, Expired cfg env.now (p.pending slot) ∧ a = timeoutAction p slot := by
  induction slots generalizing p acts with
  | nil =>
    cases swept
    exact ⟨nofun, nofun⟩
  | cons slot slots ih =>
    obtain ⟨apart, nodup⟩ := List.nodup_cons.mp nodup
    obtain ⟨p₁, sent, rest, here, there, rfl⟩ := sweepSlots_cons swept
    by_cases expired : Expired cfg env.now (p.pending slot)
    · obtain ⟨freed, branches⟩ := sweepSlot_expired expired here
      obtain ⟨later, others⟩ := ih nodup there
      have now : timeoutAction p slot ∈ sent ∧ ∀ a ∈ sent, a = timeoutAction p slot ∨ a = .failedOver := by
        obtain ⟨-, -, acts⟩ | ⟨-, -, acts⟩ := branches <;> rw [acts] <;> simp
      constructor
      · intro other member expired'
        rw [List.mem_append]
        rcases List.mem_cons.mp member with rfl | behind
        · exact .inl now.1
        · have elsewhere : other ≠ slot := by
            rintro rfl
            exact apart behind
          have same := freed.others other elsewhere
          rw [← timeoutAction_congr same]
          rw [← same] at expired'
          exact .inr (later other behind expired')
      · intro a member
        rcases List.mem_append.mp member with before | after
        · rcases now.2 a before with rfl | rfl
          · exact .inr ⟨slot, expired, rfl⟩
          · exact .inl rfl
        · obtain rfl | ⟨other, expired', rfl⟩ := others a after
          · exact .inl rfl
          · -- the slot that was freed has not expired any more
            have elsewhere : other ≠ slot := by
              rintro rfl
              have waiting := expired'.1
              rw [freed.here] at waiting
              cases waiting
            have same := freed.others other elsewhere
            rw [same] at expired'
            exact .inr ⟨other, expired', timeoutAction_congr same⟩
    · rw [sweepSlot_idle expired] at here
      cases here
      obtain ⟨later, others⟩ := ih nodup there
      refine ⟨fun other member expired' => ?_, others⟩
      rcases List.mem_cons.mp member with rfl | behind
      · exact absurd expired' expired
      · exact later other behind expired'

/-- What a client's datagram is answered with is marked exactly when the datagram is fresh. -/
theorem clientActions_marked_iff {r : ClientDatagram} {stale : Fin dnsWireMaxMsgLen → Byte}
    {origins : Fin cfg.maxPending → Option ClientDatagram} (short : r.data.length ≤ dnsWireMaxMsgLen)
    (sent : ClientActions bs env p r stale acts) :
    (∀ a ∈ acts, MarkedReply env.device (some r) origins a) ↔
      (∀ q, dnsWireParseQuestion r.data = .ok (some q) → blocks bs env.device q.qname = .ok true →
        ¬ IsBlockReply env.device.nvs.policy q r.data) ∧
      (LetThrough bs env.device r.data → (∀ slot, (p.pending slot).inUse = true) → Refusable r.data) := by
  cases sent with
  | @blocked q accepted decided =>
    rw [List.forall_mem_singleton]
    constructor
    · rintro ⟨_, q', arrived, parsed, marked⟩
      obtain rfl := Option.some.inj arrived
      obtain rfl : q = q' := Option.some.inj (Except.ok.inj (accepted.symm.trans parsed))
      refine ⟨fun q' parsed' _ => ?_, fun through => absurd decided (through q accepted)⟩
      obtain rfl : q = q' := Option.some.inj (Except.ok.inj (accepted.symm.trans parsed'))
      exact (marked_blockReply_iff short accepted).mp marked
    · rintro ⟨fresh, -⟩
      exact ⟨r, q, rfl, accepted, (marked_blockReply_iff short accepted).mpr (fresh q accepted decided)⟩
  | refused through full =>
    rw [List.forall_mem_singleton]
    constructor
    · rintro ⟨_, arrived, marked⟩
      obtain rfl := Option.some.inj arrived
      exact ⟨fun q accepted decided => absurd decided (through q accepted), fun _ _ => (marked_servfail_iff r).mp marked⟩
    · rintro ⟨-, refusable⟩
      exact ⟨r, rfl, (marked_servfail_iff r).mpr (refusable through full)⟩
  | @forwarded slot query through free =>
    rw [List.forall_mem_singleton]
    apply iff_of_true trivial
    refine ⟨fun q accepted decided => absurd decided (through q accepted), fun _ full => ?_⟩
    rw [full slot] at free
    cases free

/-- The replies of a turn are marked exactly when the datagrams it answers are fresh. -/
theorem turnMarked_iff (run : AnyRun cfg bs upstreamSock past p) (taken : turn cfg bs p (env, input) = .ok (p', acts)) :
    TurnMarked past ((env, input), acts) ↔ AnswersFresh cfg bs p (env, input) := by
  have hold := slotsHold_run run
  unfold TurnMarked AnswersFresh
  dsimp only
  cases input with
  | client sock addr data stale =>
    by_cases received : data = []
    · subst received
      cases taken
      apply iff_of_true
      · exact nofun
      · intro r arrived
        cases arrived
    · dsimp only [Input.arrival]
      rw [if_neg received, clientActions_marked_iff (length_take_le data) (handleClientDatagram_acts received taken)]
      simp only [Option.some.injEq, forall_eq']
  | upstream data stale =>
    apply iff_of_true _ trivial
    obtain ⟨-, rfl⟩ | ⟨slot, -, -, -, -, rfl⟩ := handleUpstreamDatagram_cases (Except.ok.inj taken)
    · exact nofun
    · rw [List.forall_mem_singleton]
      trivial
  | sweep =>
    obtain ⟨answered, others⟩ := sweepSlots_sent (List.nodup_finRange _) taken
    constructor
    · intro marked slot expired
      obtain ⟨r, taken', reply⟩ := marked _ (answered slot (List.mem_finRange slot) expired)
      obtain ⟨r', taken'', stored⟩ := hold slot expired.1
      obtain rfl := Option.some.inj (taken'.symm.trans taken'')
      exact (marked_timeoutReply_iff stored).mp reply
    · intro fresh a member
      obtain rfl | ⟨slot, expired, rfl⟩ := others a member
      · trivial
      · obtain ⟨r, taken', stored⟩ := hold slot expired.1
        exact ⟨r, taken', (marked_timeoutReply_iff stored).mpr (fresh slot expired)⟩
  | applyUpstreamConfig =>
    cases taken
    apply iff_of_true _ trivial
    rw [List.forall_mem_singleton]
    trivial

/-- The runs whose turns all answer fresh datagrams. -/
abbrev FreshRun (cfg : Kconfig) (bs : Bsearch) (upstreamSock : Int) :=
  Handler.Run (turn cfg bs) (fun _ p input => AnswersFresh cfg bs p input) (dnsProxyStart cfg upstreamSock)

/-- **All replies of a run that the proxy makes itself are marked exactly when every
turn answers only datagrams that have a header and are not such replies already.** -/
theorem replies_marked_iff (run : AnyRun cfg bs upstreamSock past p) :
    Handler.EachTurn TurnMarked past ↔ FreshRun cfg bs upstreamSock past p := by
  apply run.each_turn_iff
  intro past p input p' acts before taken
  exact turnMarked_iff before taken

end

/-- Two clients ask at once, the table has one slot. -/
def crowdedInputs : List (Env × Input) :=
  [askA, (quietEnv 1, .client .v6 (clientAt 5001#16) (letterQuery 0x56#8 0x78#8 0x62#8) fun _ => 0#8)]

/-- A refused query with a header is answered by a response. -/
theorem refused_query_marked : ∃ past p, FreshRun oneSlot .binary 3 past p ∧
    .refused .v6 (clientAt 5001#16) (dnsWireMakeErrorResponse (letterQuery 0x56#8 0x78#8 0x62#8) 19 dnsRcodeServfail) ∈
      past.flatMap Prod.snd ∧ Handler.EachTurn TurnMarked past := by
  have computed : (Handler.exec (turn oneSlot .binary) (dnsProxyStart oneSlot 3) crowdedInputs).map
      (fun done => done.2.flatMap Prod.snd) = .ok [.forward 0 (letterQuery 0#8 0#8 0x61#8),
        .refused .v6 (clientAt 5001#16) (dnsWireMakeErrorResponse (letterQuery 0x56#8 0x78#8 0x62#8) 19 dnsRcodeServfail)] := by
    decide +kernel
  obtain ⟨⟨p, past⟩, done, sent⟩ := exists_of_map_eq_ok computed
  have run : AnyRun oneSlot .binary 3 past p := Handler.run_exec .start (fun _ _ _ _ => trivial) done
  have fresh : FreshRun oneSlot .binary 3 past p := by
    apply Handler.run_exec .start _ done
    intro input member past p
    simp only [crowdedInputs, askA, List.mem_cons, List.not_mem_nil, or_false] at member
    rcases member with rfl | rfl
    all_goals
      intro r arrived
      obtain rfl := Option.some.inj arrived
      exact ⟨fun q _ decided => Bool.noConfusion (Except.ok.inj decided), fun _ _ => ⟨by decide, fun flags => by cases flags.qr⟩⟩
  refine ⟨past, p, fresh, ?_, (replies_marked_iff run).mpr fresh⟩
  dsimp only at sent
  rw [sent]
  exact List.mem_cons_of_mem _ (List.mem_singleton_self _)

/-- All replies of all runs are marked. -/
def RepliesMarked (cfg : Kconfig) (bs : Bsearch) (upstreamSock : Int) : Prop :=
  ∀ past p, AnyRun cfg bs upstreamSock past p → Handler.EachTurn TurnMarked past

/-- Two datagrams of two bytes: the table is full when the second arrives. -/
def shortInputs : List (Env × Input) :=
  [(quietEnv 0, .client .v4 (clientAt 5000#16) [0x12#8, 0x34#8] fun _ => 0#8),
    (quietEnv 1, .client .v6 (clientAt 5001#16) [0x56#8, 0x78#8] fun _ => 0#8)]

/-- The second datagram is sent back as it came. -/
theorem short_query_echoed : ¬ RepliesMarked oneSlot .binary 3 := by
  have computed : (Handler.exec (turn oneSlot .binary) (dnsProxyStart oneSlot 3) shortInputs).map
      (fun done => done.2.map fun t => (t.1.2.arrival, t.2)) =
        .ok [(some ⟨.v4, clientAt 5000#16, [0x12#8, 0x34#8]⟩, [.forward 0 [0#8, 0#8]]),
          (some ⟨.v6, clientAt 5001#16, [0x56#8, 0x78#8]⟩, [.refused .v6 (clientAt 5001#16) [0x56#8, 0x78#8]])] := by
    decide +kernel
  obtain ⟨⟨p, past⟩, done, sent⟩ := exists_of_map_eq_ok computed
  have run : AnyRun oneSlot .binary 3 past p := Handler.run_exec .start (fun _ _ _ _ => trivial) done
  obtain ⟨first, rest, whole, -, later⟩ := List.map_eq_cons_iff.mp sent
  obtain ⟨second, none, rfl, same, -⟩ := List.map_eq_cons_iff.mp later
  obtain ⟨arrived, acts⟩ := Prod.mk.inj same
  dsimp only at whole
  intro marked
  have reply := marked past p run [first] second none whole (.refused .v6 (clientAt 5001#16) [0x56#8, 0x78#8])
    (by rw [acts]; exact List.mem_singleton_self _)
  obtain ⟨r, -, reply⟩ := reply
  exact absurd reply.header (by decide)

end EspAdblocker.Dns
