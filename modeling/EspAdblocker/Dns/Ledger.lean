import EspAdblocker.Dns.Steps
import EspAdblocker.Lib.Custody
import EspAdblocker.Lib.Run

/-!
# The pending table over whole runs

A ledger read off the record of a run says which datagrams were received, which
slot each query was forwarded from and how each datagram was answered. It is the
abstract view of the proxy: datagrams in custody of the pending table. Over every
run it agrees with the table, and every datagram is pending or answered once.
-/

namespace EspAdblocker.Dns

open EspAdblocker.Lib EspAdblocker.Storage

/-! ## The ledger -/

/-- A query sent upstream: the number of the client's datagram, the slot and the bytes. -/
structure Forwarded (N : Nat) where
  id : Nat
  slot : Fin N
  query : List Byte
  deriving DecidableEq, Repr

/-- What a run has done with the clients' datagrams, numbered in order of arrival. -/
structure Ledger (N : Nat) where
  received : List ClientDatagram := []
  holder : Fin N → Option Nat := fun _ => none
  forwarded : List (Forwarded N) := []
  answers : List (Nat × Action N) := []
  /-- Answers without a ground: from a slot that holds nothing, or a refusal beside a free slot. -/
  stray : List (Action N) := []

section

variable {N : Nat}

/-- The reply an action sends to a client. -/
def Action.reply : Action N → Option ClientDatagram
  | .blocked sock addr bytes => some ⟨sock, addr, bytes⟩
  | .refused sock addr bytes => some ⟨sock, addr, bytes⟩
  | .relayed _ sock addr bytes => some ⟨sock, addr, bytes⟩
  | .timedOut _ sock addr bytes => some ⟨sock, addr, bytes⟩
  | _ => none

/-- Whether the action is one of the two SERVFAIL replies. -/
def Action.isServfail : Action N → Bool
  | .refused .. => true
  | .timedOut .. => true
  | _ => false

namespace Ledger

/-- The number of the datagram received last. -/
def current (L : Ledger N) : Nat := L.received.length - 1

/-- A datagram arrives. -/
def receive (L : Ledger N) (arrival : Option ClientDatagram) : Ledger N :=
  { L with received := L.received ++ arrival.toList }

/-- The datagram received last is answered. -/
def answer (L : Ledger N) (a : Action N) : Ledger N := { L with answers := L.answers ++ [(L.current, a)] }

/-- The datagram a slot holds is answered. -/
def settle (L : Ledger N) (slot : Fin N) (a : Action N) : Ledger N :=
  match L.holder slot with
  | none => { L with stray := L.stray ++ [a] }
  | some id => { L with holder := Function.update L.holder slot none, answers := L.answers ++ [(id, a)] }

/-- One action of the record. -/
def act (L : Ledger N) : Action N → Ledger N
  | .forward slot query =>
    { L with
      holder := Function.update L.holder slot (some L.current)
      forwarded := L.forwarded ++ [⟨L.current, slot, query⟩] }
  | .blocked sock addr bytes => L.answer (.blocked sock addr bytes)
  | .refused sock addr bytes =>
    if ∀ slot, (L.holder slot).isSome = true then L.answer (.refused sock addr bytes)
    else { L with stray := L.stray ++ [.refused sock addr bytes] }
  | .relayed slot sock addr bytes => L.settle slot (.relayed slot sock addr bytes)
  | .timedOut slot sock addr bytes => L.settle slot (.timedOut slot sock addr bytes)
  | .failedOver => L
  | .reconfigured => L

/-- One turn of the record. -/
def turn (L : Ledger N) (arrival : Option ClientDatagram) (acts : List (Action N)) : Ledger N :=
  acts.foldl act (L.receive arrival)

/-- Whose datagram is where. -/
def custody (L : Ledger N) : Custody (Fin N) := ⟨L.received.length, L.holder, L.answers.map Prod.fst⟩

@[simp] theorem receive_none (L : Ledger N) : L.receive none = L := by
  rw [receive, Option.toList_none, List.append_nil]

@[simp] theorem turn_nil (L : Ledger N) : L.turn none [] = L := receive_none L

theorem turn_append (L : Ledger N) (arrival : Option ClientDatagram) (acts acts' : List (Action N)) :
    L.turn arrival (acts ++ acts') = (L.turn arrival acts).turn none acts' := by
  rw [turn, List.foldl_append, turn, receive_none]
  rfl

@[simp] theorem current_receive (L : Ledger N) (r : ClientDatagram) : (L.receive (some r)).current = L.received.length := by
  rw [current, receive, Option.toList_some, List.length_append, List.length_singleton, Nat.add_sub_cancel]

theorem forwarded_forward (L : Ledger N) (r : ClientDatagram) (slot : Fin N) (query : List Byte) :
    (L.turn (some r) [.forward slot query]).forwarded = L.forwarded ++ [⟨L.received.length, slot, query⟩] :=
  congrArg (fun id => L.forwarded ++ [⟨id, slot, query⟩]) (current_receive L r)

theorem holder_forward_self (L : Ledger N) (r : ClientDatagram) (slot : Fin N) (query : List Byte) :
    (L.turn (some r) [.forward slot query]).holder slot = some L.received.length :=
  (Function.update_self _ _ _).trans (congrArg some (current_receive L r))

theorem holder_forward_other (L : Ledger N) (r : ClientDatagram) {slot other : Fin N} (there : other ≠ slot)
    (query : List Byte) : (L.turn (some r) [.forward slot query]).holder other = L.holder other :=
  Function.update_of_ne there _ _

theorem custody_forward (L : Ledger N) (r : ClientDatagram) (slot : Fin N) (query : List Byte) :
    (L.turn (some r) [.forward slot query]).custody = L.custody.hold slot := by
  simp [turn, act, custody, Custody.hold, receive, current]

theorem custody_answer (L : Ledger N) (r : ClientDatagram) (a : Action N) :
    ((L.receive (some r)).answer a).custody = L.custody.settle := by
  simp [answer, custody, Custody.settle, receive, current]

theorem custody_settle {L : Ledger N} {slot : Fin N} {id : Nat} (held : L.holder slot = some id) (a : Action N) :
    (L.settle slot a).custody = L.custody.release slot id := by
  simp [settle, held, custody, Custody.release]

end Ledger

/-! ## What the ledger and the table agree on -/

/-- The action answers the datagram: it goes to the client the datagram came from, under its transaction id, and a
SERVFAIL is the error response to it. -/
structure AnswerTo (r : ClientDatagram) (a : Action N) : Prop where
  reply : ∃ bytes, a.reply = some ⟨r.sock, r.addr, bytes⟩ ∧
    (2 ≤ r.data.length → dnsWireGetTxid bytes = dnsWireGetTxid r.data)
  servfail : a.isServfail = true → 2 ≤ r.data.length → a.reply = some ⟨r.sock, r.addr, r.servfail⟩

/-- The ledger agrees with the pending table, and every datagram is pending or answered once. -/
structure Conserved (L : Ledger N) (p : Proxy N) : Prop where
  /-- A slot in use holds a datagram that was received. -/
  held : ∀ {slot}, (p.pending slot).inUse = true →
    ∃ id r, L.holder slot = some id ∧ L.received[id]? = some r ∧ Holds slot r (p.pending slot)
  /-- A free slot holds none. -/
  free : ∀ {slot}, (p.pending slot).inUse = false → L.holder slot = none
  /-- Every datagram is in one slot and not answered, or in none and answered once. -/
  custody : L.custody.Balanced
  /-- The answers answer the datagrams they are for. -/
  answered : ∀ {id a}, (id, a) ∈ L.answers → ∃ r, L.received[id]? = some r ∧ AnswerTo r a
  /-- Nothing else was sent to a client, and no query was refused beside a free slot. -/
  stray : L.stray = []

/-- The datagram is in one slot, which is in use, and has not been answered. -/
structure PendingIn (L : Ledger N) (p : Proxy N) (id : Nat) (r : ClientDatagram) (slot : Fin N) : Prop where
  inUse : (p.pending slot).inUse = true
  holds : Holds slot r (p.pending slot)
  only : ∀ other, L.holder other = some id ↔ other = slot
  open_ : ∀ a, (id, a) ∉ L.answers

/-- The datagram is in no slot and has been answered by one action. -/
structure AnsweredBy (L : Ledger N) (id : Nat) (r : ClientDatagram) (a : Action N) : Prop where
  gone : ∀ slot, L.holder slot ≠ some id
  once : (L.answers.filter fun entry => entry.1 = id) = [(id, a)]
  answers : AnswerTo r a

/-- What was received stays received. -/
theorem received_of_receive {L : Ledger N} {id : Nat} {r : ClientDatagram} (arrival : Option ClientDatagram)
    (known : L.received[id]? = some r) : (L.receive arrival).received[id]? = some r := by
  have inside := (List.getElem?_eq_some_iff.mp known).1
  exact (List.getElem?_append_left inside).trans known

theorem received_current (L : Ledger N) (r : ClientDatagram) :
    (L.receive (some r)).received[L.received.length]? = some r := by
  simp [Ledger.receive]

/-- The slot of a query that waits is held by its datagram. -/
theorem Conserved.holder {L : Ledger N} {p : Proxy N} (h : Conserved L p) {slot : Fin N} :
    (p.pending slot).inUse = true ↔ (L.holder slot).isSome = true := by
  constructor
  · intro waiting
    obtain ⟨id, r, held, -⟩ := h.held waiting
    rw [held]
    rfl
  · intro held
    by_contra waiting
    rw [h.free (Bool.eq_false_of_not_eq_true waiting)] at held
    cases held

/-- **Every datagram received is pending in one slot or answered once.** -/
theorem Conserved.pending_or_answered {L : Ledger N} {p : Proxy N} (h : Conserved L p) {id : Nat} {r : ClientDatagram}
    (known : L.received[id]? = some r) : (∃ slot, PendingIn L p id r slot) ∨ ∃ a, AnsweredBy L id r a := by
  by_cases somewhere : ∃ slot, L.holder slot = some id
  · left
    obtain ⟨slot, held⟩ := somewhere
    have waiting : (p.pending slot).inUse = true := h.holder.mpr (by rw [held]; rfl)
    obtain ⟨id', r', held', known', stored⟩ := h.held waiting
    obtain rfl : id = id' := Option.some.inj (held.symm.trans held')
    obtain rfl : r = r' := Option.some.inj (known.symm.trans known')
    refine ⟨slot, waiting, stored, fun other => ⟨fun there => h.custody.alone there held, ?_⟩, fun a member => ?_⟩
    · rintro rfl
      exact held
    · exact h.custody.open_ held (List.mem_map.mpr ⟨_, member, rfl⟩)
  · right
    have gone : ∀ slot, L.holder slot ≠ some id := fun slot held => somewhere ⟨slot, held⟩
    have once := h.custody.once (List.getElem?_eq_some_iff.mp known).1 gone
    have one : (L.answers.filter fun entry => entry.1 = id).length = 1 := by
      rw [← once, List.count, Ledger.custody, List.countP_map, List.countP_eq_length_filter]
      rfl
    obtain ⟨⟨id', a⟩, only⟩ := List.length_eq_one_iff.mp one
    have member : (id', a) ∈ L.answers.filter fun entry => entry.1 = id := by
      rw [only]
      exact List.mem_singleton_self _
    rw [List.mem_filter, decide_eq_true_eq] at member
    obtain ⟨listed, rfl⟩ := member
    obtain ⟨r', known', answers⟩ := h.answered listed
    obtain rfl : r = r' := Option.some.inj (known.symm.trans known')
    exact ⟨a, gone, only, answers⟩

/-- A datagram that is answered at once. -/
theorem Conserved.answer {L : Ledger N} {p p' : Proxy N} {r : ClientDatagram} {a : Action N} (h : Conserved L p)
    (same : p'.pending = p.pending) (answers : AnswerTo r a) : Conserved ((L.receive (some r)).answer a) p' where
  held := by
    intro slot waiting
    rw [same] at waiting ⊢
    obtain ⟨id, r', holds, known, stored⟩ := h.held waiting
    exact ⟨id, r', holds, received_of_receive _ known, stored⟩
  free := by
    intro slot free
    rw [same] at free
    exact h.free free
  custody := by
    rw [Ledger.custody_answer]
    exact h.custody.settle
  answered := by
    intro id a' member
    rcases List.mem_append.mp member with before | now
    · obtain ⟨r', known, ok⟩ := h.answered before
      exact ⟨r', received_of_receive _ known, ok⟩
    · rw [List.mem_singleton, Prod.mk.injEq, Ledger.current_receive] at now
      obtain ⟨rfl, rfl⟩ := now
      exact ⟨r, received_current L r, answers⟩
  stray := h.stray

/-- A datagram that is held by a slot. -/
theorem Conserved.forward {L : Ledger N} {p p' : Proxy N} {r : ClientDatagram} {slot : Fin N} {q : PendingQuery}
    (h : Conserved L p) (free : (p.pending slot).inUse = false) (holds : Holds slot r q) (takes : Takes p p' slot q) :
    Conserved (L.turn (some r) [.forward slot q.query]) p' where
  held := by
    intro other waiting
    by_cases here : other = slot
    · subst here
      exact ⟨L.received.length, r, L.holder_forward_self r other q.query, received_current L r, by rwa [takes.here]⟩
    · rw [takes.others other here] at waiting ⊢
      obtain ⟨id, r', held, known, stored⟩ := h.held waiting
      exact ⟨id, r', (L.holder_forward_other r here q.query).trans held, received_of_receive _ known, stored⟩
  free := by
    intro other idle
    have here : other ≠ slot := by
      rintro rfl
      rw [takes.here, holds.inUse] at idle
      cases idle
    rw [takes.others other here] at idle
    exact (L.holder_forward_other r here q.query).trans (h.free idle)
  custody := by
    rw [Ledger.custody_forward]
    exact h.custody.hold (h.free free)
  answered := by
    intro id a member
    obtain ⟨r', known, ok⟩ := h.answered member
    exact ⟨r', received_of_receive _ known, ok⟩
  stray := h.stray

/-- A datagram that leaves its slot answered. -/
theorem Conserved.settle {L : Ledger N} {p p' : Proxy N} {slot : Fin N} {a : Action N} (h : Conserved L p)
    (waiting : (p.pending slot).inUse = true) (frees : Frees p p' slot)
    (answers : ∀ r, Holds slot r (p.pending slot) → AnswerTo r a) : Conserved (L.settle slot a) p' := by
  obtain ⟨id, r, held, known, stored⟩ := h.held waiting
  have settled : L.settle slot a =
      { L with holder := Function.update L.holder slot none, answers := L.answers ++ [(id, a)] } := by
    rw [Ledger.settle, held]
  refine ⟨?_, ?_, ?_, ?_, ?_⟩
  · intro other still
    have there : other ≠ slot := by
      rintro rfl
      rw [frees.here] at still
      cases still
    rw [frees.others other there] at still ⊢
    obtain ⟨id', r', held', known', stored'⟩ := h.held still
    rw [settled]
    exact ⟨id', r', (Function.update_of_ne there _ _).trans held', known', stored'⟩
  · intro other free
    rw [settled]
    by_cases here : other = slot
    · subst here
      exact Function.update_self _ _ _
    · rw [frees.others other here] at free
      exact (Function.update_of_ne here _ _).trans (h.free free)
  · rw [Ledger.custody_settle held]
    exact h.custody.release held
  · intro id' a' member
    rw [settled] at member ⊢
    rcases List.mem_append.mp member with before | now
    · exact h.answered before
    · rw [List.mem_singleton, Prod.mk.injEq] at now
      obtain ⟨rfl, rfl⟩ := now
      exact ⟨r, known, answers r stored⟩
  · rw [settled]
    exact h.stray

/-- A reply under the datagram's id, to its client. -/
theorem answerTo_relayed {slot : Fin N} {r : ClientDatagram} {q : PendingQuery} {reply : List Byte} (holds : Holds slot r q)
    (readable : 2 ≤ reply.length) :
    AnswerTo r (.relayed slot q.replySock q.clientAddr (dnsWireSetTxid reply q.clientTxid)) where
  reply := by
    refine ⟨dnsWireSetTxid reply q.clientTxid, ?_, fun long => ?_⟩
    · rw [Action.reply, holds.sock, holds.addr]
    · rw [dnsWireGetTxid_set readable, holds.txid long]
  servfail := nofun

theorem dnsWireGetTxid_servfail (r : ClientDatagram) : dnsWireGetTxid r.servfail = dnsWireGetTxid r.data :=
  dnsWireGetTxid_errorResponse _ _ _

theorem answerTo_timedOut {slot : Fin N} {r : ClientDatagram} {p : Proxy N} (holds : Holds slot r (p.pending slot)) :
    AnswerTo r (timeoutAction p slot) where
  reply := by
    refine ⟨_, by rw [timeoutAction, Action.reply, holds.sock, holds.addr], fun long => ?_⟩
    rw [holds.timeoutReply long, dnsWireGetTxid_servfail]
  servfail _ long := by
    rw [timeoutAction, Action.reply, holds.sock, holds.addr, holds.timeoutReply long]

/-- A step keeps ledger and table in agreement. -/
theorem Conserved.step {cfg : Kconfig} {env : Env} {L : Ledger N} {p p' : Proxy N} {arrival : Option ClientDatagram}
    {acts : List (Action N)} (h : Conserved L p) (step : Step cfg env p arrival acts p') :
    Conserved (L.turn arrival acts) p' := by
  have unchanged (same : p'.pending = p.pending) : Conserved L p' := by
    refine ⟨?_, ?_, h.custody, h.answered, h.stray⟩
    · rw [same]
      exact h.held
    · rw [same]
      exact h.free
  cases step with
  | idle same =>
    rw [Ledger.turn_nil]
    exact unchanged same.pending
  | blocked txid same => exact h.answer same.pending ⟨⟨_, rfl, fun _ => txid⟩, nofun⟩
  | @refused r _ full same =>
    have ground : ∀ slot, (L.holder slot).isSome = true := fun slot => h.holder.mp (full slot)
    have refusal : L.turn (some r) [.refused r.sock r.addr r.servfail] =
        (L.receive (some r)).answer (.refused r.sock r.addr r.servfail) := if_pos ground
    rw [refusal]
    exact h.answer same.pending ⟨⟨_, rfl, fun _ => dnsWireGetTxid_servfail r⟩, fun _ _ => rfl⟩
  | forward free holds sent takes => exact h.forward free holds takes
  | relayed readable named waiting frees reset =>
    rw [Ledger.turn, Ledger.receive_none]
    exact h.settle waiting frees fun r holds => answerTo_relayed holds readable
  | timedOut expired frees below counted =>
    rw [Ledger.turn, Ledger.receive_none]
    exact h.settle expired.1 frees fun r holds => answerTo_timedOut holds
  | switched expired frees reached reset =>
    rw [Ledger.turn, Ledger.receive_none]
    exact h.settle expired.1 frees fun r holds => answerTo_timedOut holds
  | reconfigured same reset =>
    rw [Ledger.turn, Ledger.receive_none]
    exact unchanged same

theorem Conserved.steps {cfg : Kconfig} {env : Env} {L : Ledger N} {p p' : Proxy N} {arrival : Option ClientDatagram}
    {acts : List (Action N)} (h : Conserved L p) (steps : Steps cfg env p arrival acts p') :
    Conserved (L.turn arrival acts) p' := by
  induction steps with
  | single step => exact h.step step
  | more before step ih =>
    rw [Ledger.turn_append]
    exact ih.step step

end

/-! ## Over whole runs -/

/-- The ledger of a record. -/
def ledger {N : Nat} (past : List (Turn (Env × Input) (Action N))) : Ledger N :=
  past.foldl (fun L t => L.turn t.1.2.arrival t.2) {}

@[simp] theorem ledger_append {N : Nat} (past : List (Turn (Env × Input) (Action N))) (t : Turn (Env × Input) (Action N)) :
    ledger (past ++ [t]) = (ledger past).turn t.1.2.arrival t.2 := by
  rw [ledger, List.foldl_append]
  rfl

/-- The runs of the task in which upstream datagrams can carry a transaction id. -/
abbrev ProxyRun (cfg : Kconfig) (bs : Bsearch) (upstreamSock : Int) :=
  Handler.Run (turn cfg bs) (fun _ _ input => input.2.Readable) (dnsProxyStart cfg upstreamSock)

section

variable {cfg : Kconfig} {bs : Bsearch} {upstreamSock : Int} {past : List (Turn (Env × Input) (Action cfg.maxPending))}
  {p : Proxy cfg.maxPending}

theorem conserved_start : Conserved (ledger []) (dnsProxyStart cfg upstreamSock) where
  held waiting := by cases waiting
  free _ := rfl
  custody := Custody.balanced_empty
  answered member := by cases member
  stray := rfl

theorem conserved_run (run : ProxyRun cfg bs upstreamSock past p) : Conserved (ledger past) p := by
  refine run.invariant (fun past p => Conserved (ledger past) p) conserved_start ?_
  intro past p input p' acts _ kept readable taken
  rw [ledger_append]
  exact kept.steps (turn_steps readable taken)

/-- **The pending table is conserved**: in every state of every run each slot in use holds one
datagram received and not yet answered, pending ids are distinct, and every datagram
received is in one slot or has been answered once, to its client and under its id. -/
theorem pending_table_conserved (few : cfg.maxPending ≤ 65536) (run : ProxyRun cfg bs upstreamSock past p) :
    Conserved (ledger past) p ∧
      (∀ id r, (ledger past).received[id]? = some r →
        (∃ slot, PendingIn (ledger past) p id r slot) ∨ ∃ a, AnsweredBy (ledger past) id r a) ∧
      ∀ slot slot', (p.pending slot).inUse = true → (p.pending slot').inUse = true →
        2 ≤ (p.pending slot).queryLen → 2 ≤ (p.pending slot').queryLen →
        dnsWireGetTxid (p.pending slot).query = dnsWireGetTxid (p.pending slot').query → slot = slot' := by
  have conserved := conserved_run run
  refine ⟨conserved, fun id r => conserved.pending_or_answered, fun slot slot' waiting waiting' long long' same => ?_⟩
  have index {slot : Fin cfg.maxPending} (waiting : (p.pending slot).inUse = true) (long : 2 ≤ (p.pending slot).queryLen) :
      (dnsWireGetTxid (p.pending slot).query).toNat = slot := by
    obtain ⟨id, r, -, -, holds⟩ := conserved.held waiting
    rw [holds.length] at long
    rw [holds.query, dnsWireGetTxid_set long, BitVec.toNat_ofNat]
    exact Nat.mod_eq_of_lt (by omega)
  apply Fin.ext
  rw [← index waiting long, same, index waiting' long']

end

/-- Nothing is loaded, so nothing is blocked. -/
def quietEnv (now : Int) : Env where
  device := { partSize := fun _ => none, flash := fun _ => [], files := fun _ => none, seed := [] }
  now
  unixTime := 0
  logTime _ := some now
  attempt _ := (3, true)

/-- A table of one slot. -/
def oneSlot : Kconfig := { maxPending := 1, upstreamTimeoutMs := 3000, upstreamFailThreshold := 5, queryLogSize := 4 }

instance : NeZero oneSlot.maxPending := ⟨Nat.one_ne_zero⟩

/-- The client behind a port. -/
def clientAt (port : BitVec 16) : SockAddr := ⟨2, [192#8, 168#8, 1#8, 2#8], port⟩

/-- Two queries at once, a reply, and a query without one. -/
def sampleInputs : List (Env × Input) :=
  [(quietEnv 0, .client .v4 (clientAt 5000#16) [0x12#8, 0x34#8] fun _ => 0#8),
    (quietEnv 1, .client .v6 (clientAt 5001#16) [0x56#8, 0x78#8] fun _ => 0#8),
    (quietEnv 2, .upstream [0#8, 0#8, 0x81#8] fun _ => 0#8),
    (quietEnv 3, .client .v4 (clientAt 5002#16) [0x9A#8, 0xBC#8] fun _ => 0#8),
    (quietEnv 3000003, .sweep)]

theorem sample_run_conserved : ∃ past p, ProxyRun oneSlot .binary 3 past p ∧
    (ledger past).answers = [(1, .refused .v6 (clientAt 5001#16) [0x56#8, 0x78#8]),
      (0, .relayed 0 .v4 (clientAt 5000#16) [0x12#8, 0x34#8, 0x81#8]),
      (2, .timedOut 0 .v4 (clientAt 5002#16) [0x9A#8, 0xBC#8])] ∧
    Conserved (ledger past) p := by
  have computed : (Handler.exec (turn oneSlot .binary) (dnsProxyStart oneSlot 3) sampleInputs).map
      (fun done => (ledger done.2).answers) = .ok [(1, .refused .v6 (clientAt 5001#16) [0x56#8, 0x78#8]),
        (0, .relayed 0 .v4 (clientAt 5000#16) [0x12#8, 0x34#8, 0x81#8]),
        (2, .timedOut 0 .v4 (clientAt 5002#16) [0x9A#8, 0xBC#8])] := by
    decide +kernel
  obtain ⟨⟨p, past⟩, done, answers⟩ := exists_of_map_eq_ok computed
  have run : ProxyRun oneSlot .binary 3 past p :=
    Handler.run_exec .start (by simp [sampleInputs, Input.Readable]) done
  exact ⟨past, p, run, answers, (pending_table_conserved (by decide) run).1⟩

end EspAdblocker.Dns
