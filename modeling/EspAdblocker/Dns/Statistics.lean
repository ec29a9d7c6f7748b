import EspAdblocker.Dns.History
import EspAdblocker.Dns.Marking

/-!
# The statistics over whole runs

The counters of `s_stats` are bumped at four places of the handlers, and the
buckets of the last day at one. Over every run they agree with the record: every
datagram counted was blocked, refused or forwarded, and of those forwarded as
many have been neither relayed nor timed out as slots are in use. The counters
say so modulo 2^32.
-/

namespace EspAdblocker.Dns

open EspAdblocker.Lib EspAdblocker.Storage

section

variable {N : Nat}

/-! ## What is counted -/

/-- What becomes of a client's query. -/
inductive Fate where
  | blocked
  | refused
  | forwarded
  | relayed
  | timedOut
  deriving DecidableEq, Repr

/-- The fate an action brings about. -/
def Action.fate : Action N → Option Fate
  | .forward .. => some .forwarded
  | .blocked .. => some .blocked
  | .refused .. => some .refused
  | .relayed .. => some .relayed
  | .timedOut .. => some .timedOut
  | .failedOver | .reconfigured => none

/-- How many actions bring about a fate. -/
def fates (acts : List (Action N)) (f : Fate) : Nat := acts.countP fun a => a.fate = some f

@[simp] theorem fates_nil (f : Fate) : fates ([] : List (Action N)) f = 0 := rfl

@[simp] theorem fates_append (acts acts' : List (Action N)) (f : Fate) :
    fates (acts ++ acts') f = fates acts f + fates acts' f :=
  List.countP_append

/-- The slots in use. -/
def Proxy.inUse (p : Proxy N) : Nat := (Finset.univ.filter fun slot => (p.pending slot).inUse = true).card

theorem inUse_congr {p p' : Proxy N} (same : p'.pending = p.pending) : p'.inUse = p.inUse := by
  rw [Proxy.inUse, same, Proxy.inUse]

/-- Taking a free slot. -/
theorem inUse_take {p p' : Proxy N} {slot : Fin N} (free : (p.pending slot).inUse = false)
    (here : (p'.pending slot).inUse = true) (others : ∀ other, other ≠ slot → p'.pending other = p.pending other) :
    p'.inUse = p.inUse + 1 := by
  have fresh : slot ∉ Finset.univ.filter fun slot => (p.pending slot).inUse = true := by simp [free]
  rw [Proxy.inUse, Proxy.inUse, ← Finset.card_insert_of_notMem fresh]
  congr 1
  ext other
  by_cases same : other = slot
  · simp [same, here]
  · simp [same, others other same]

/-- Freeing a slot in use. -/
theorem inUse_free {p p' : Proxy N} {slot : Fin N} (waiting : (p.pending slot).inUse = true) (frees : Frees p p' slot) :
    p'.inUse + 1 = p.inUse :=
  (inUse_take frees.here waiting fun other there => (frees.others other there).symm).symm

/-! ## What a turn adds -/

/-- What a turn that starts with `arrived` datagrams and performs `acts` adds to
the counters, to the buckets of the last day and to the table. -/
structure Accounts (unixTime arrived : Nat) (acts : List (Action N)) (p p' : Proxy N) : Prop where
  total : p'.stats.queriesTotal = p.stats.queriesTotal + BitVec.ofNat 32 arrived
  blocked : p'.stats.queriesBlocked = p.stats.queriesBlocked + BitVec.ofNat 32 (fates acts .blocked)
  forwarded : p'.stats.queriesForwarded = p.stats.queriesForwarded + BitVec.ofNat 32 (fates acts .forwarded)
  servfail : p'.stats.queriesServfail =
    p.stats.queriesServfail + BitVec.ofNat 32 (fates acts .refused + fates acts .timedOut)
  history : p'.history = (List.replicate (fates acts .blocked) unixTime).foldl recordBlocked p.history
  settled : arrived = fates acts .blocked + fates acts .refused + fates acts .forwarded
  table : p'.inUse + fates acts .relayed + fates acts .timedOut = p.inUse + fates acts .forwarded

variable {unixTime : Nat} {p q p' : Proxy N}

theorem Accounts.refl (p : Proxy N) : Accounts unixTime 0 [] p p where
  total := (BitVec.add_zero _).symm
  blocked := (BitVec.add_zero _).symm
  forwarded := (BitVec.add_zero _).symm
  servfail := (BitVec.add_zero _).symm
  history := rfl
  settled := rfl
  table := rfl

theorem Accounts.trans {arrived arrived' : Nat} {acts acts' : List (Action N)} (first : Accounts unixTime arrived acts p q)
    (second : Accounts unixTime arrived' acts' q p') : Accounts unixTime (arrived + arrived') (acts ++ acts') p p' where
  total := by rw [second.total, first.total, BitVec.add_assoc, ← BitVec.ofNat_add]
  blocked := by rw [second.blocked, first.blocked, BitVec.add_assoc, ← BitVec.ofNat_add, fates_append]
  forwarded := by rw [second.forwarded, first.forwarded, BitVec.add_assoc, ← BitVec.ofNat_add, fates_append]
  servfail := by
    rw [second.servfail, first.servfail, BitVec.add_assoc, ← BitVec.ofNat_add, fates_append, fates_append,
      Nat.add_add_add_comm]
  history := by rw [second.history, first.history, fates_append, List.replicate_add, List.foldl_append]
  settled := by
    have here := first.settled
    have there := second.settled
    simp only [fates_append]
    omega
  table := by
    have here := first.table
    have there := second.table
    simp only [fates_append]
    omega

@[simp] theorem logQuestion_stats (cfg : Kconfig) (p : Proxy N) (time : Option Int) (client : SockAddr)
    (question : Option DnsWireQuestion) (result : QueryResult) :
    (p.logQuestion cfg time client question result).stats = p.stats := by
  cases question <;> rfl

@[simp] theorem logQuestion_history (cfg : Kconfig) (p : Proxy N) (time : Option Int) (client : SockAddr)
    (question : Option DnsWireQuestion) (result : QueryResult) :
    (p.logQuestion cfg time client question result).history = p.history := by
  cases question <;> rfl

/-- A query that is not blocked is refused or takes a slot. -/
theorem forwardOrRefuse_accounts {cfg : Kconfig} {env : Env} {sock : ListenSock} {client : SockAddr} {buf : List Byte}
    {n : Nat} {question : Option DnsWireQuestion} {acts : List (Action N)}
    (handled : forwardOrRefuse cfg env p.counted sock client buf n question = (p', acts)) :
    Accounts unixTime 1 acts p p' := by
  rw [forwardOrRefuse] at handled
  split at handled
  · cases handled
    refine ⟨?_, ?_, ?_, ?_, ?_, rfl, ?_⟩
    · simp [Proxy.counted]
    · simp [Proxy.counted, fates, Action.fate]
    · simp [Proxy.counted, fates, Action.fate]
    · simp [Proxy.counted, fates, Action.fate]
    · simp [Proxy.counted, fates, Action.fate]
    · exact inUse_congr (by simp [Proxy.counted])
  · rename_i slot found
    cases handled
    refine ⟨?_, ?_, ?_, ?_, ?_, rfl, ?_⟩
    · simp [Proxy.counted, Proxy.setPending]
    · simp [Proxy.counted, Proxy.setPending, fates, Action.fate]
    · simp [Proxy.counted, Proxy.setPending, fates, Action.fate]
    · simp [Proxy.counted, Proxy.setPending, fates, Action.fate]
    · simp [Proxy.counted, Proxy.setPending, fates, Action.fate]
    · have free : (p.pending slot).inUse = false := findFreeSlot_some found
      refine inUse_take free ?_ fun other there => ?_
      · simp [Proxy.setPending]
      · simp [Proxy.counted, Proxy.setPending, Function.update_of_ne there]

/-- `handle_client_datagram` counts each datagram that is not empty, and its fate. -/
theorem handleClientDatagram_accounts {cfg : Kconfig} {bs : Bsearch} {env : Env} {sock : ListenSock} {client : SockAddr}
    {data : List Byte} {stale : Fin dnsWireMaxMsgLen → Byte} {acts : List (Action N)}
    (handled : handleClientDatagram cfg bs env p sock client data stale = .ok (p', acts)) :
    Accounts env.unixTime (if data = [] then 0 else 1) acts p p' := by
  by_cases received : data = []
  · subst received
    cases handled
    exact .refl p
  rw [if_neg received]
  cases handleClientDatagram_turn handled with
  | empty nothing => exact absurd nothing received
  | passed _ _ passed => exact forwardOrRefuse_accounts passed
  | blocked _ _ =>
    refine ⟨?_, ?_, ?_, ?_, ?_, rfl, ?_⟩
    · simp [Proxy.counted]
    · simp [Proxy.counted, fates, Action.fate]
    · simp [Proxy.counted, fates, Action.fate]
    · simp [Proxy.counted, fates, Action.fate]
    · simp [fates, Action.fate]
    · exact inUse_congr (by simp [Proxy.counted])

/-- `handle_upstream_datagram` counts nothing; a reply it relays frees a slot. -/
theorem handleUpstreamDatagram_accounts {data : List Byte} {stale : Fin dnsWireMaxMsgLen → Byte} {acts : List (Action N)}
    (handled : handleUpstreamDatagram p data stale = (p', acts)) : Accounts unixTime 0 acts p p' := by
  cases handleUpstreamDatagram_turn handled with
  | dropped _ => exact .refl p
  | @relayed slot _ _ waiting =>
    refine ⟨by simp [Proxy.setPending], ?_, ?_, ?_, ?_, rfl, ?_⟩
    · simp [Proxy.setPending, fates, Action.fate]
    · simp [Proxy.setPending, fates, Action.fate]
    · simp [Proxy.setPending, fates, Action.fate]
    · simp [Proxy.setPending, fates, Action.fate]
    · refine inUse_free waiting ⟨by simp [Proxy.setPending], fun other there => ?_⟩
      simp [Proxy.setPending, Function.update_of_ne there]

/-- One turn of the loop of `sweep_timeouts` counts a query that it times out. -/
theorem sweepSlot_accounts {cfg : Kconfig} {env : Env} {slot : Fin N} {acts : List (Action N)}
    (swept : sweepSlot cfg env p slot = .ok (p', acts)) : Accounts unixTime 0 acts p p' := by
  by_cases expired : Expired cfg env.now (p.pending slot)
  · have freed := (sweepSlot_expired expired swept).1
    have timed {q : Proxy N} (timed : timeOutSlot cfg env p slot = .ok q) :
        q.stats = { p.stats with queriesServfail := p.stats.queriesServfail + 1#32 } ∧ q.history = p.history := by
      rw [timeOutSlot] at timed
      simp only [bind, Except.bind] at timed
      split at timed
      · cases timed
      · cases timed
        simp [Proxy.setPending]
    rw [sweepSlot] at swept
    simp only [if_pos expired, bind, Except.bind] at swept
    split at swept
    · cases swept
    rename_i done
    obtain ⟨stats, history⟩ := timed done
    split at swept
    · cases swept
      refine ⟨?_, ?_, ?_, ?_, history, rfl, inUse_free expired.1 freed⟩
      all_goals simp [failOverUpstream, stats, fates, Action.fate]
    · cases swept
      refine ⟨?_, ?_, ?_, ?_, history, rfl, inUse_free expired.1 freed⟩
      all_goals simp [stats, fates, Action.fate]
  · rw [sweepSlot_idle expired] at swept
    cases swept
    exact .refl p

theorem sweepSlots_accounts {cfg : Kconfig} {env : Env} {slots : List (Fin N)} {acts : List (Action N)}
    (swept : sweepSlots cfg env p slots = .ok (p', acts)) : Accounts unixTime 0 acts p p' := by
  induction slots generalizing p acts with
  | nil =>
    cases swept
    exact .refl _
  | cons slot slots ih =>
    obtain ⟨p₁, sent, rest, here, there, rfl⟩ := sweepSlots_cons swept
    exact (sweepSlot_accounts here).trans (ih there)

end

/-- The datagrams a turn starts with. -/
def Input.arrivals (input : Input) : Nat := input.arrival.elim 0 fun _ => 1

/-- **A turn accounts for the datagram it received and the actions it performed.** -/
theorem turn_accounts {cfg : Kconfig} {bs : Bsearch} {p p' : Proxy cfg.maxPending} {env : Env} {input : Input}
    {acts : List (Action cfg.maxPending)} (taken : turn cfg bs p (env, input) = .ok (p', acts)) :
    Accounts env.unixTime input.arrivals acts p p' := by
  cases input with
  | client sock addr data stale =>
    have counted := handleClientDatagram_accounts taken
    by_cases received : data = []
    · subst received
      exact counted
    · rw [if_neg received] at counted
      rwa [Input.arrivals, Input.arrival, if_neg received]
  | upstream data stale => exact handleUpstreamDatagram_accounts (Except.ok.inj taken)
  | sweep => exact sweepSlots_accounts taken
  | applyUpstreamConfig =>
    cases taken
    refine ⟨by simp [Input.arrivals, Input.arrival], ?_, ?_, ?_, ?_, rfl, rfl⟩
    all_goals simp [fates, Action.fate]

/-! ## Over whole runs -/

section

variable {N : Nat}

/-- The datagrams received in a run. -/
def arrivals (past : List (Turn (Env × Input) (Action N))) : Nat := (past.map fun t => t.1.2.arrivals).sum

/-- The actions of a run. -/
def performed (past : List (Turn (Env × Input) (Action N))) : List (Action N) := past.flatMap Prod.snd

/-- When queries were blocked in a run. -/
def blockTimes (past : List (Turn (Env × Input) (Action N))) : List Nat :=
  past.flatMap fun t => List.replicate (fates t.2 .blocked) t.1.1.unixTime

/-- The statistics agree with the record. -/
structure Counted (past : List (Turn (Env × Input) (Action N))) (p : Proxy N) : Prop where
  total : p.stats.queriesTotal = BitVec.ofNat 32 (arrivals past)
  blocked : p.stats.queriesBlocked = BitVec.ofNat 32 (fates (performed past) .blocked)
  forwarded : p.stats.queriesForwarded = BitVec.ofNat 32 (fates (performed past) .forwarded)
  servfail : p.stats.queriesServfail =
    BitVec.ofNat 32 (fates (performed past) .refused + fates (performed past) .timedOut)
  history : p.history = (blockTimes past).foldl recordBlocked {}
  /-- Every datagram received has been blocked, refused or forwarded. -/
  settled : arrivals past =
    fates (performed past) .blocked + fates (performed past) .refused + fates (performed past) .forwarded
  /-- Every query forwarded has been relayed, has timed out or is in a slot. -/
  table : fates (performed past) .forwarded =
    fates (performed past) .relayed + fates (performed past) .timedOut + p.inUse

end

section

variable {cfg : Kconfig} {bs : Bsearch} {upstreamSock : Int} {past : List (Turn (Env × Input) (Action cfg.maxPending))}
  {p : Proxy cfg.maxPending}

theorem counted_start : Counted [] (dnsProxyStart cfg upstreamSock) where
  total := rfl
  blocked := rfl
  forwarded := rfl
  servfail := rfl
  history := rfl
  settled := rfl
  table := by simp [performed, Proxy.inUse, dnsProxyStart]

theorem Counted.turn {input : Env × Input} {p' : Proxy cfg.maxPending} {acts : List (Action cfg.maxPending)}
    (h : Counted past p) (taken : Dns.turn cfg bs p input = .ok (p', acts)) : Counted (past ++ [(input, acts)]) p' := by
  have counts := turn_accounts taken
  have received : arrivals (past ++ [(input, acts)]) = arrivals past + input.2.arrivals := by simp [arrivals]
  have done (f : Fate) : fates (performed (past ++ [(input, acts)])) f = fates (performed past) f + fates acts f := by
    simp [performed]
  have times : blockTimes (past ++ [(input, acts)]) =
      blockTimes past ++ List.replicate (fates acts .blocked) input.1.unixTime := by simp [blockTimes]
  refine ⟨?_, ?_, ?_, ?_, ?_, ?_, ?_⟩
  · rw [counts.total, h.total, received, BitVec.ofNat_add]
  · rw [counts.blocked, h.blocked, done, BitVec.ofNat_add]
  · rw [counts.forwarded, h.forwarded, done, BitVec.ofNat_add]
  · rw [counts.servfail, h.servfail, done, done, ← BitVec.ofNat_add, Nat.add_add_add_comm]
  · rw [counts.history, h.history, times, List.foldl_append]
  · have before := h.settled
    have now := counts.settled
    simp only [received, done]
    omega
  · have before := h.table
    have now := counts.table
    simp only [done]
    omega

/-- **The statistics are exact in every state of every run**: each counter is, modulo 2^32, the
number of its events; every datagram received was blocked, refused or forwarded once; and every
query forwarded has been relayed, has timed out or waits in a slot. -/
theorem statistics_exact (run : AnyRun cfg bs upstreamSock past p) : Counted past p :=
  run.invariant (fun past p => Counted past p) counted_start fun _ _ _ _ _ _ kept _ taken => kept.turn taken

/-- On a clock that never goes back the buckets count the blocks of the last 24 clock hours. -/
theorem Counted.last24h (h : Counted past p) {unixTime : Nat} (ordered : (past.map fun t => t.1.1.unixTime).Pairwise (· ≤ ·))
    (later : ∀ t ∈ past, t.1.1.unixTime ≤ unixTime) :
    blockedLast24h p.history unixTime =
      BitVec.ofNat 32 ((blockTimes past).countP fun time => WithinDay (unixTime / 3600) (time / 3600)) := by
  have times {time : Nat} {before : List (Turn (Env × Input) (Action cfg.maxPending))} (member : time ∈ blockTimes before) :
      ∃ t ∈ before, t.1.1.unixTime = time := by
    obtain ⟨t, inside, copies⟩ := List.mem_flatMap.mp member
    exact ⟨t, inside, (List.eq_of_mem_replicate copies).symm⟩
  have sorted : (blockTimes past).Pairwise (· ≤ ·) := by
    rw [List.pairwise_map] at ordered
    refine List.pairwise_flatMap.mpr ⟨fun t _ => List.pairwise_replicate.mpr (.inr le_rfl), ordered.imp fun le x hx y hy => ?_⟩
    rwa [List.eq_of_mem_replicate hx, List.eq_of_mem_replicate hy]
  have calls : ((blockTimes past).map HistoryCall.record).map HistoryCall.time = blockTimes past := by
    rw [List.map_map]
    exact List.map_id _
  rw [← calls] at sorted
  obtain ⟨b, represents, tracks⟩ := history_tracks sorted
  have hours : recordedHours ((blockTimes past).map .record) = (blockTimes past).map (· / 3600) := by
    rw [recordedHours, List.filterMap_map, ← List.filterMap_eq_map]
    rfl
  have past_hours : ∀ hour ∈ (blockTimes past).map (· / 3600), hour ≤ unixTime / 3600 := by
    intro hour member
    obtain ⟨time, inside, rfl⟩ := List.mem_map.mp member
    obtain ⟨t, recorded, rfl⟩ := times inside
    exact Nat.div_le_div_right (later t recorded)
  rw [hours] at tracks
  rw [List.foldl_map, show (fun history time => HistoryCall.apply history (.record time)) = recordBlocked from rfl,
    ← h.history] at represents
  rw [represents.read, tracks.total_eq (by decide) past_hours, List.countP_map]
  congr 1
  apply List.countP_congr
  intro time _
  simp only [Function.comp_apply, decide_eq_true_eq]
  unfold WithinDay blockedHistoryHours
  omega

end

/-- Three queries: one was refused, one reply was relayed, and one query timed out. -/
def sampleStats : DnsProxyStats :=
  { queriesTotal := 3#32, queriesBlocked := 0#32, queriesForwarded := 2#32, queriesServfail := 2#32 }

theorem sample_run_counted : ∃ past p, AnyRun oneSlot .binary 3 past p ∧ Counted past p ∧ p.stats = sampleStats ∧
    p.inUse = 0 := by
  have computed : (Handler.exec (turn oneSlot .binary) (dnsProxyStart oneSlot 3) sampleInputs).map
      (fun done => (done.1.stats, done.1.inUse)) = .ok (sampleStats, 0) := by
    decide +kernel
  obtain ⟨⟨p, past⟩, done, found⟩ := exists_of_map_eq_ok computed
  have run : AnyRun oneSlot .binary 3 past p := Handler.run_exec .start (fun _ _ _ _ => trivial) done
  exact ⟨past, p, run, statistics_exact run, congrArg Prod.fst found, congrArg Prod.snd found⟩

end EspAdblocker.Dns
