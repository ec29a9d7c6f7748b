import EspAdblocker.Dns.Ledger

/-!
# When queries are answered

`dns_proxy_task` sweeps the table after every `select()`, at the latest 200 ms
after the last time. The first sweep that finds a query waiting for
`CONFIG_DNS_PROXY_UPSTREAM_TIMEOUT_MS` answers it, so whatever the upstream does
no datagram stays unanswered past that sweep, and a query is refused only when the
table is full of others that arrived a timeout before the last sweep or later.
-/

namespace EspAdblocker.Dns

open EspAdblocker.Lib EspAdblocker.Storage

section

variable {N : Nat}

/-! ## When datagrams arrived -/

/-- The datagrams received in a run. -/
theorem received_ledger (past : List (Turn (Env × Input) (Action N))) :
    (ledger past).received = past.filterMap fun t => t.1.2.arrival := by
  have act (L : Ledger N) (a : Action N) : (L.act a).received = L.received := by
    cases a with
    | refused sock addr bytes =>
      rw [Ledger.act]
      split <;> rfl
    | relayed slot sock addr bytes =>
      rw [Ledger.act, Ledger.settle]
      split <;> rfl
    | timedOut slot sock addr bytes =>
      rw [Ledger.act, Ledger.settle]
      split <;> rfl
    | forward | blocked | failedOver | reconfigured => rfl
  have turn (L : Ledger N) (acts : List (Action N)) : (acts.foldl Ledger.act L).received = L.received := by
    induction acts generalizing L with
    | nil => rfl
    | cons a acts ih => rw [List.foldl_cons, ih, act]
  induction past using List.reverseRecOn with
  | nil => rfl
  | append_singleton past t ih =>
    rw [ledger_append, Ledger.turn, turn, Ledger.receive, ih, List.filterMap_append]
    cases arrived : t.1.2.arrival <;> simp [arrived]

/-- When the datagrams of a run were received. -/
def arrivalTimes (past : List (Turn (Env × Input) (Action N))) : List Int :=
  past.filterMap fun t => t.1.2.arrival.map fun _ => t.1.1.now

theorem length_arrivalTimes (past : List (Turn (Env × Input) (Action N))) :
    (arrivalTimes past).length = (ledger past).received.length := by
  rw [received_ledger, arrivalTimes]
  induction past with
  | nil => rfl
  | cons t past ih =>
    cases arrived : t.1.2.arrival <;> simp [arrived, ih]

/-- What was received before was received. -/
theorem received_length_le (before after : List (Turn (Env × Input) (Action N))) :
    (ledger before).received.length ≤ (ledger (before ++ after)).received.length := by
  rw [received_ledger, received_ledger, List.filterMap_append, List.length_append]
  exact Nat.le_add_right _ _

/-! ## The slots in use after a turn -/

/-- A slot in use after some steps was in use before and is as it was, or it has
been taken for the datagram that arrived. -/
def HeldSince (env : Env) (L : Ledger N) (p : Proxy N) (arrival : Option ClientDatagram) (acts : List (Action N))
    (p' : Proxy N) : Prop :=
  ∀ slot, (p'.pending slot).inUse = true →
    (p'.pending slot = p.pending slot ∧ (L.turn arrival acts).holder slot = L.holder slot) ∨
      (arrival.isSome = true ∧ (L.turn arrival acts).holder slot = some L.received.length ∧
        (p'.pending slot).sentAtUs = env.now)

theorem holder_settle_other (L : Ledger N) {slot other : Fin N} (there : other ≠ slot) (a : Action N) :
    (L.settle slot a).holder other = L.holder other := by
  rw [Ledger.settle]
  split
  · rfl
  · exact Function.update_of_ne there _ _

theorem HeldSince.frees {env : Env} {L : Ledger N} {p p' : Proxy N} {slot : Fin N} {acts : List (Action N)}
    (frees : Frees p p' slot) (settled : ∀ other, other ≠ slot → (L.turn none acts).holder other = L.holder other) :
    HeldSince env L p none acts p' := by
  intro other waiting
  have there : other ≠ slot := by
    rintro rfl
    rw [frees.here] at waiting
    cases waiting
  exact .inl ⟨frees.others other there, settled other there⟩

theorem heldSince_step {cfg : Kconfig} {env : Env} {L : Ledger N} {p p' : Proxy N} {arrival : Option ClientDatagram}
    {acts : List (Action N)} (step : Step cfg env p arrival acts p') : HeldSince env L p arrival acts p' := by
  cases step with
  | idle same => exact fun slot _ => .inl ⟨by rw [same.pending], by rw [Ledger.turn_nil]⟩
  | blocked txid same => exact fun slot _ => .inl ⟨by rw [same.pending], rfl⟩
  | refused full same =>
    refine fun slot _ => .inl ⟨by rw [same.pending], ?_⟩
    rw [Ledger.turn, List.foldl_cons, List.foldl_nil, Ledger.act]
    split <;> rfl
  | @forward r taken q _ free holds sent takes =>
    intro slot _
    by_cases here : slot = taken
    · subst here
      exact .inr ⟨rfl, L.holder_forward_self r slot q.query, by rw [takes.here, sent]⟩
    · exact .inl ⟨takes.others slot here, L.holder_forward_other r here q.query⟩
  | relayed readable named waiting frees reset =>
    apply HeldSince.frees frees
    intro other there
    rw [Ledger.turn, Ledger.receive_none]
    exact holder_settle_other L there _
  | timedOut expired frees below counted =>
    apply HeldSince.frees frees
    intro other there
    rw [Ledger.turn, Ledger.receive_none]
    exact holder_settle_other L there _
  | switched expired frees reached reset =>
    apply HeldSince.frees frees
    intro other there
    rw [Ledger.turn, Ledger.receive_none]
    exact holder_settle_other L there _
  | reconfigured same reset => exact fun slot _ => .inl ⟨by rw [same], by rw [Ledger.turn, Ledger.receive_none]; rfl⟩

theorem heldSince_steps {cfg : Kconfig} {env : Env} {L : Ledger N} {p p' : Proxy N} {arrival : Option ClientDatagram}
    {acts : List (Action N)} (steps : Steps cfg env p arrival acts p') : HeldSince env L p arrival acts p' := by
  induction steps with
  | single step => exact heldSince_step step
  | @more acts acts' p₁ p₂ before step ih =>
    intro slot waiting
    rw [Ledger.turn_append]
    obtain ⟨same, held⟩ | ⟨received, -⟩ := heldSince_step (L := L.turn arrival acts) step slot waiting
    · rw [same] at waiting ⊢
      rw [held]
      exact ih slot waiting
    · cases received

/-- After a sweep the slots in use have not expired. -/
theorem sweepSlots_waiting {cfg : Kconfig} {env : Env} {p p' : Proxy N} {slots : List (Fin N)} {acts : List (Action N)}
    (swept : sweepSlots cfg env p slots = .ok (p', acts)) (slot : Fin N) (waiting : (p'.pending slot).inUse = true) :
    p'.pending slot = p.pending slot ∧ (slot ∈ slots → ¬ Expired cfg env.now (p.pending slot)) := by
  induction slots generalizing p acts with
  | nil =>
    cases swept
    exact ⟨rfl, nofun⟩
  | cons first slots ih =>
    obtain ⟨p₁, sent, rest, here, there, rfl⟩ := sweepSlots_cons swept
    obtain ⟨same, unexpired⟩ := ih there
    by_cases expired : Expired cfg env.now (p.pending first)
    · obtain ⟨freed, -⟩ := sweepSlot_expired expired here
      have elsewhere : slot ≠ first := by
        rintro rfl
        rw [same, freed.here] at waiting
        cases waiting
      rw [freed.others slot elsewhere] at same unexpired
      refine ⟨same, fun member => unexpired ?_⟩
      exact (List.mem_cons.mp member).resolve_left elsewhere
    · rw [sweepSlot_idle expired] at here
      cases here
      refine ⟨same, fun member => ?_⟩
      rcases List.mem_cons.mp member with rfl | behind
      · exact expired
      · exact unexpired behind

end

/-! ## Over whole runs -/

section

variable {cfg : Kconfig} {bs : Bsearch} {upstreamSock : Int} {past : List (Turn (Env × Input) (Action cfg.maxPending))}
  {p : Proxy cfg.maxPending}

/-- Every sweep since datagram `id` arrived came less than the timeout after it. -/
def SweptEarly (cfg : Kconfig) (past : List (Turn (Env × Input) (Action cfg.maxPending))) (id : Nat) (time : Int) : Prop :=
  Handler.EachTurn (fun before t => t.1.2 = .sweep → id < (ledger before).received.length →
    t.1.1.now - time < cfg.upstreamTimeoutMs * 1000) past

/-- A slot in use holds a datagram since it arrived, and no sweep since then came too late for it. -/
def Timely (cfg : Kconfig) (past : List (Turn (Env × Input) (Action cfg.maxPending))) (p : Proxy cfg.maxPending) : Prop :=
  ∀ slot, (p.pending slot).inUse = true → ∃ id, (ledger past).holder slot = some id ∧
    (arrivalTimes past)[id]? = some (p.pending slot).sentAtUs ∧ SweptEarly cfg past id (p.pending slot).sentAtUs

theorem Timely.turn {input : Env × Input} {p' : Proxy cfg.maxPending} {acts : List (Action cfg.maxPending)}
    (h : Timely cfg past p) (readable : input.2.Readable) (taken : Dns.turn cfg bs p input = .ok (p', acts)) :
    Timely cfg (past ++ [(input, acts)]) p' := by
  obtain ⟨env, input⟩ := input
  intro slot waiting
  rw [ledger_append]
  have times : arrivalTimes (past ++ [((env, input), acts)]) =
      arrivalTimes past ++ (input.arrival.map fun _ => env.now).toList := by
    rw [arrivalTimes, List.filterMap_append]
    cases arrived : input.arrival <;> simp [arrived, arrivalTimes]
  rw [times]
  obtain ⟨same, held⟩ | ⟨arrived, held, sent⟩ :=
    heldSince_steps (L := ledger past) (turn_steps readable taken) slot waiting
  · have before := waiting
    rw [same] at before
    obtain ⟨id, holder, stamped, early⟩ := h slot before
    rw [same]
    refine ⟨id, held.trans holder, ?_, Handler.eachTurn_append.mpr ⟨early, ?_⟩⟩
    · rw [List.getElem?_append_left (List.getElem?_eq_some_iff.mp stamped).1, stamped]
    · rintro rfl -
      obtain ⟨-, unexpired⟩ := sweepSlots_waiting taken slot waiting
      by_contra late
      exact unexpired (List.mem_finRange slot) ⟨before, late⟩
  · refine ⟨_, held, ?_, Handler.eachTurn_append.mpr ⟨?_, ?_⟩⟩
    · obtain ⟨r, received⟩ := Option.isSome_iff_exists.mp arrived
      rw [← length_arrivalTimes, received, sent, Option.map_some, Option.toList_some, List.getElem?_concat_length]
    · intro before t after whole _ inside
      rw [whole] at inside
      exact absurd inside (Nat.not_lt_of_le (received_length_le before (t :: after)))
    · intro _ inside
      exact absurd inside (Nat.lt_irrefl _)

theorem timely_run (run : ProxyRun cfg bs upstreamSock past p) : Timely cfg past p := by
  refine run.invariant (fun past p => Timely cfg past p) ?_ ?_
  · intro slot waiting
    cases waiting
  · intro past p input p' acts _ kept readable taken
    exact kept.turn readable taken

/-- **Every datagram is answered by the first sweep that comes the timeout after it**, and once: in no
run is there a datagram that a sweep found old enough and that is still in the table. -/
theorem answered_by_deadline (run : ProxyRun cfg bs upstreamSock past p)
    {before after : List (Turn (Env × Input) (Action cfg.maxPending))} {env : Env} {acts : List (Action cfg.maxPending)}
    (whole : past = before ++ ((env, .sweep), acts) :: after) {id : Nat} {r : ClientDatagram} {time : Int}
    (known : (ledger before).received[id]? = some r) (arrived : (arrivalTimes before)[id]? = some time)
    (due : time + cfg.upstreamTimeoutMs * 1000 ≤ env.now) : ∃ a, AnsweredBy (ledger past) id r a := by
  have later : (ledger past).received[id]? = some r ∧ (arrivalTimes past)[id]? = some time := by
    rw [received_ledger] at known ⊢
    rw [arrivalTimes] at arrived ⊢
    rw [whole, List.filterMap_append, List.filterMap_append,
      List.getElem?_append_left (List.getElem?_eq_some_iff.mp known).1,
      List.getElem?_append_left (List.getElem?_eq_some_iff.mp arrived).1]
    exact ⟨known, arrived⟩
  refine ((conserved_run run).pending_or_answered later.1).resolve_left ?_
  rintro ⟨slot, pending⟩
  obtain ⟨id', holder, stamped, early⟩ := timely_run run slot pending.inUse
  obtain rfl : id = id' := Option.some.inj (((pending.only slot).mpr rfl).symm.trans holder)
  obtain rfl : time = (p.pending slot).sentAtUs := Option.some.inj (later.2.symm.trans stamped)
  have inTime := early before _ after whole rfl (List.getElem?_eq_some_iff.mp known).1
  dsimp only at inTime
  omega

/-- A query is refused only when the table is full. -/
theorem full_of_refused {N : Nat} {env : Env} {p p' : Proxy N} {arrival : Option ClientDatagram} {acts : List (Action N)}
    (steps : Steps cfg env p arrival acts p') {sock : ListenSock} {addr : SockAddr} {bytes : List Byte}
    (refused : .refused sock addr bytes ∈ acts) (slot : Fin N) : (p.pending slot).inUse = true := by
  induction steps with
  | single step =>
    cases step with
    | refused full same => exact full slot
    | idle | blocked | forward | relayed | timedOut | switched | reconfigured =>
      simp [timeoutAction] at refused
  | more before step ih =>
    rcases List.mem_append.mp refused with earlier | now
    · exact ih earlier
    · cases step with
      | idle | relayed | timedOut | switched | reconfigured => simp [timeoutAction] at now

/-- **A query is refused only when as many others wait as the table has slots**, and no
sweep has found one of them old enough: late replies and lost ones cannot fill the table for longer. -/
theorem refused_when_crowded (run : ProxyRun cfg bs upstreamSock past p) {env : Env} {input : Input}
    {p' : Proxy cfg.maxPending} {acts : List (Action cfg.maxPending)} (readable : input.Readable)
    (taken : turn cfg bs p (env, input) = .ok (p', acts)) {sock : ListenSock} {addr : SockAddr} {bytes : List Byte}
    (refused : .refused sock addr bytes ∈ acts) :
    ∃ waiting : Fin cfg.maxPending → Nat, Function.Injective waiting ∧
      ∀ slot, (ledger past).holder slot = some (waiting slot) ∧
        ∃ time, (arrivalTimes past)[waiting slot]? = some time ∧ SweptEarly cfg past (waiting slot) time := by
  have full := full_of_refused (turn_steps readable taken) refused
  choose waiting holder stamped early using fun slot => timely_run run slot (full slot)
  refine ⟨waiting, fun slot slot' same => ?_, fun slot => ⟨holder slot, _, stamped slot, early slot⟩⟩
  apply (conserved_run run).custody.alone (holder slot)
  rw [same]
  exact holder slot'

end

/-- A query that comes while another waits. -/
def secondQuery : Input := .client .v6 (clientAt 5001#16) [0x56#8, 0x78#8] fun _ => 0#8

/-- The reply to the first query is lost, and no sweep is late enough to answer it. -/
def lostReplyInputs : List (Env × Input) :=
  [(quietEnv 0, .client .v4 (clientAt 5000#16) [0x12#8, 0x34#8] fun _ => 0#8), (quietEnv 200000, .sweep),
    (quietEnv 200001, secondQuery)]

theorem lost_reply_answered : ∃ past p a, ProxyRun oneSlot .binary 3 past p ∧
    AnsweredBy (ledger past) 0 ⟨.v4, clientAt 5000#16, [0x12#8, 0x34#8]⟩ a := by
  have computed : (Handler.exec (turn oneSlot .binary) (dnsProxyStart oneSlot 3) lostReplyInputs).map
      (fun done => ((ledger done.2).received, arrivalTimes done.2)) =
        .ok ([⟨.v4, clientAt 5000#16, [0x12#8, 0x34#8]⟩, ⟨.v6, clientAt 5001#16, [0x56#8, 0x78#8]⟩], [0, 200001]) := by
    decide +kernel
  obtain ⟨⟨p, past⟩, done, known⟩ := exists_of_map_eq_ok computed
  obtain ⟨received, times⟩ := Prod.mk.inj known
  have run : ProxyRun oneSlot .binary 3 past p :=
    Handler.run_exec .start (by simp [lostReplyInputs, secondQuery, Input.Readable]) done
  obtain ⟨⟨p', acts⟩, swept⟩ := sweepSlots_total oneSlot (quietEnv 3000000) p (List.finRange oneSlot.maxPending)
  have longer : ProxyRun oneSlot .binary 3 (past ++ [((quietEnv 3000000, .sweep), acts)]) p' := .turn run trivial swept
  have first : (ledger past).received[0]? = some ⟨.v4, clientAt 5000#16, [0x12#8, 0x34#8]⟩ := by
    rw [received]
    rfl
  have atStart : (arrivalTimes past)[0]? = some 0 := by
    rw [times]
    rfl
  obtain ⟨a, answered⟩ := answered_by_deadline longer rfl first atStart (by decide)
  exact ⟨_, p', a, longer, answered⟩

theorem second_query_refused : ∃ past p waiting, ProxyRun oneSlot .binary 3 past p ∧ Function.Injective waiting ∧
    ∀ slot : Fin oneSlot.maxPending, (ledger past).holder slot = some (waiting slot) ∧
      ∃ time, (arrivalTimes past)[waiting slot]? = some time ∧ SweptEarly oneSlot past (waiting slot) time := by
  have computed : (Handler.exec (turn oneSlot .binary) (dnsProxyStart oneSlot 3) (lostReplyInputs.take 2)).bind
      (fun done => (turn oneSlot .binary done.1 (quietEnv 200001, secondQuery)).map Prod.snd) =
        .ok [.refused .v6 (clientAt 5001#16) [0x56#8, 0x78#8]] := by
    decide +kernel
  rcases done : Handler.exec (turn oneSlot .binary) (dnsProxyStart oneSlot 3) (lostReplyInputs.take 2) with e | ⟨p, past⟩
  · rw [done] at computed
    cases computed
  rw [done, Except.bind] at computed
  obtain ⟨⟨p', acts⟩, taken, sent⟩ := exists_of_map_eq_ok computed
  dsimp only at sent
  subst sent
  have run : ProxyRun oneSlot .binary 3 past p :=
    Handler.run_exec .start (by simp [lostReplyInputs, secondQuery, Input.Readable]) done
  have readable : secondQuery.Readable := trivial
  obtain ⟨waiting, apart, times⟩ := refused_when_crowded run readable taken (List.mem_singleton_self _)
  exact ⟨past, p, waiting, run, apart, times⟩

end EspAdblocker.Dns
