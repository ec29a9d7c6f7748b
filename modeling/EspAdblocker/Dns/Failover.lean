import EspAdblocker.Dns.Ledger

/-!
# What a failover is charged for

`s_consecutive_timeouts` is one counter for all queries, and the sweep goes on
counting after it has switched upstreams. A tally read off the record counts only
the timeouts of queries that went to the upstream in force; the two agree, and
every failover is justified, exactly as long as no sweep finds an expired query
of an earlier upstream or more expired queries than the threshold still allows.
-/

namespace EspAdblocker.Dns

open EspAdblocker.Lib EspAdblocker.Storage

/-! ## The tally -/

/-- The slots whose query was forwarded to the upstream in force, and how many such
queries have timed out since it was selected or last matched a reply. -/
structure Tally (N : Nat) where
  fresh : Fin N → Bool := fun _ => false
  timeouts : Nat := 0

section

variable {N : Nat}

/-- One action of the record. -/
def Tally.act (t : Tally N) : Action N → Tally N
  | .forward slot _ => { t with fresh := Function.update t.fresh slot true }
  | .relayed slot _ _ _ => { fresh := Function.update t.fresh slot false, timeouts := 0 }
  | .timedOut slot _ _ _ =>
    { fresh := Function.update t.fresh slot false
      timeouts := if t.fresh slot = true then t.timeouts + 1 else t.timeouts }
  | .failedOver => {}
  | .reconfigured => {}
  | .blocked .. => t
  | .refused .. => t

/-- The tally of a record. -/
def tally (past : List (Turn (Env × Input) (Action N))) : Tally N :=
  (past.flatMap Prod.snd).foldl Tally.act {}

/-- Every failover comes after enough timeouts of the upstream it abandons. -/
def Justified (threshold : Nat) : Tally N → List (Action N) → Prop
  | _, [] => True
  | t, a :: acts => (a = .failedOver → threshold ≤ t.timeouts) ∧ Justified threshold (t.act a) acts

theorem justified_append {threshold : Nat} {t : Tally N} {acts acts' : List (Action N)} :
    Justified threshold t (acts ++ acts') ↔
      Justified threshold t acts ∧ Justified threshold (acts.foldl Tally.act t) acts' := by
  induction acts generalizing t with
  | nil => simp [Justified]
  | cons a acts ih =>
    rw [List.cons_append, Justified, Justified, ih, and_assoc, List.foldl_cons]

/-- The failovers among some actions. -/
def failovers (acts : List (Action N)) : Nat := acts.count .failedOver

theorem tally_append (past : List (Turn (Env × Input) (Action N))) (t : Turn (Env × Input) (Action N)) :
    tally (past ++ [t]) = t.2.foldl Tally.act (tally past) := by
  rw [tally, List.flatMap_append, List.foldl_append, List.flatMap_singleton]
  rfl

@[simp] theorem act_timeoutAction_fresh {t : Tally N} {p : Proxy N} {slot : Fin N} (fresh : t.fresh slot = true) :
    (t.act (timeoutAction p slot)).timeouts = t.timeouts + 1 := if_pos fresh

theorem act_timeoutAction_stale {t : Tally N} {p : Proxy N} {slot : Fin N} (stale : t.fresh slot = false) :
    (t.act (timeoutAction p slot)).timeouts = t.timeouts := if_neg (by rw [stale]; decide)

theorem act_timeoutAction_le (t : Tally N) (p : Proxy N) (slot : Fin N) :
    (t.act (timeoutAction p slot)).timeouts ≤ t.timeouts + 1 := by
  rcases fresh : t.fresh slot with _ | _
  · rw [act_timeoutAction_stale fresh]
    exact Nat.le_succ _
  · rw [act_timeoutAction_fresh fresh]

theorem act_timeoutAction_other {t : Tally N} {p : Proxy N} {slot other : Fin N} (there : other ≠ slot) :
    (t.act (timeoutAction p slot)).fresh other = t.fresh other := Function.update_of_ne there _ _

/-! ## One sweep -/

/-- The expired queries among some slots. -/
def expiredCount (cfg : Kconfig) (now : Int) (p : Proxy N) (slots : List (Fin N)) : Nat :=
  slots.countP fun slot => Expired cfg now (p.pending slot)

theorem expiredCount_cons_of_expired {cfg : Kconfig} {now : Int} {p : Proxy N} {slot : Fin N} {slots : List (Fin N)}
    (expired : Expired cfg now (p.pending slot)) :
    expiredCount cfg now p (slot :: slots) = expiredCount cfg now p slots + 1 :=
  List.countP_cons_of_pos (decide_eq_true expired)

theorem expiredCount_cons_of_waiting {cfg : Kconfig} {now : Int} {p : Proxy N} {slot : Fin N} {slots : List (Fin N)}
    (waiting : ¬ Expired cfg now (p.pending slot)) :
    expiredCount cfg now p (slot :: slots) = expiredCount cfg now p slots :=
  List.countP_cons_of_neg (by simpa using waiting)

/-- Freeing a slot leaves the others as they are. -/
theorem expiredCount_frees {cfg : Kconfig} {now : Int} {p p' : Proxy N} {slot : Fin N} {slots : List (Fin N)}
    (frees : Frees p p' slot) (absent : slot ∉ slots) : expiredCount cfg now p' slots = expiredCount cfg now p slots := by
  refine List.countP_congr fun other member => ?_
  have there : other ≠ slot := by
    rintro rfl
    exact absent member
  rw [frees.others other there]

/-- Nothing happens without an expired query. -/
theorem sweepSlots_idle {cfg : Kconfig} {env : Env} {p p' : Proxy N} {slots : List (Fin N)} {acts : List (Action N)}
    (none_expired : expiredCount cfg env.now p slots = 0) (swept : sweepSlots cfg env p slots = .ok (p', acts)) :
    p' = p ∧ acts = [] := by
  induction slots generalizing acts with
  | nil =>
    cases swept
    exact ⟨rfl, rfl⟩
  | cons slot slots ih =>
    have waiting : ¬ Expired cfg env.now (p.pending slot) := by
      intro expired
      rw [expiredCount_cons_of_expired expired] at none_expired
      cases none_expired
    rw [expiredCount_cons_of_waiting waiting] at none_expired
    rw [sweepSlots, sweepSlot_idle waiting] at swept
    simp only [bind, Except.bind] at swept
    split at swept
    · cases swept
    · rename_i rest
      cases swept
      exact ih none_expired rest

/-- Every expired query went to the upstream in force, and they do not pass the threshold. -/
structure Orderly (cfg : Kconfig) (now : Int) (p : Proxy N) (t : Tally N) (slots : List (Fin N)) : Prop where
  fresh : ∀ slot ∈ slots, Expired cfg now (p.pending slot) → t.fresh slot = true
  few : p.consecutiveTimeouts + expiredCount cfg now p slots ≤ cfg.upstreamFailThreshold

instance (cfg : Kconfig) (now : Int) (p : Proxy N) (t : Tally N) (slots : List (Fin N)) :
    Decidable (Orderly cfg now p t slots) :=
  decidable_of_iff ((∀ slot ∈ slots, Expired cfg now (p.pending slot) → t.fresh slot = true) ∧
      p.consecutiveTimeouts + expiredCount cfg now p slots ≤ cfg.upstreamFailThreshold)
    ⟨fun ⟨fresh, few⟩ => ⟨fresh, few⟩, fun h => ⟨h.fresh, h.few⟩⟩

theorem Orderly.waiting {cfg : Kconfig} {now : Int} {p : Proxy N} {t : Tally N} {slot : Fin N} {slots : List (Fin N)}
    (waiting : ¬ Expired cfg now (p.pending slot)) : Orderly cfg now p t (slot :: slots) ↔ Orderly cfg now p t slots := by
  constructor
  · intro h
    have few := h.few
    rw [expiredCount_cons_of_waiting waiting] at few
    exact ⟨fun other member => h.fresh other (List.mem_cons_of_mem _ member), few⟩
  · intro h
    refine ⟨fun other member expired => ?_, ?_⟩
    · rcases List.mem_cons.mp member with rfl | member
      · exact absurd expired waiting
      · exact h.fresh other member expired
    · rw [expiredCount_cons_of_waiting waiting]
      exact h.few

/-- The rest of the sweep after a timeout that was counted and tallied. -/
theorem Orderly.timedOut {cfg : Kconfig} {now : Int} {p p₁ : Proxy N} {t : Tally N} {slot : Fin N} {slots : List (Fin N)}
    (expired : Expired cfg now (p.pending slot)) (fresh : t.fresh slot = true) (frees : Frees p p₁ slot)
    (counted : p₁.consecutiveTimeouts = p.consecutiveTimeouts + 1) (absent : slot ∉ slots) :
    Orderly cfg now p t (slot :: slots) ↔ Orderly cfg now p₁ (t.act (timeoutAction p slot)) slots := by
  have there {other : Fin N} (member : other ∈ slots) : other ≠ slot := by
    rintro rfl
    exact absent member
  constructor
  · intro h
    refine ⟨fun other member expired' => ?_, ?_⟩
    · rw [frees.others other (there member)] at expired'
      rw [act_timeoutAction_other (there member)]
      exact h.fresh other (List.mem_cons_of_mem _ member) expired'
    · have few := h.few
      rw [expiredCount_cons_of_expired expired] at few
      rw [expiredCount_frees frees absent, counted]
      omega
  · intro h
    refine ⟨fun other member expired' => ?_, ?_⟩
    · rcases List.mem_cons.mp member with rfl | member
      · exact fresh
      · rw [← act_timeoutAction_other (there member)]
        apply h.fresh other member
        rwa [frees.others other (there member)]
    · have few := h.few
      rw [expiredCount_frees frees absent, counted] at few
      rw [expiredCount_cons_of_expired expired]
      omega

/-- A timeout that reaches the threshold, when no other query has expired. -/
theorem Orderly.last {cfg : Kconfig} {now : Int} {p : Proxy N} {t : Tally N} {slot : Fin N} {slots : List (Fin N)}
    (expired : Expired cfg now (p.pending slot)) (fresh : t.fresh slot = true)
    (room : p.consecutiveTimeouts < cfg.upstreamFailThreshold)
    (none_left : ∀ other ∈ slots, ¬ Expired cfg now (p.pending other)) : Orderly cfg now p t (slot :: slots) where
  fresh := by
    intro other member expired'
    rcases List.mem_cons.mp member with rfl | inside
    · exact fresh
    · exact absurd expired' (none_left other inside)
  few := by
    have none_expired : expiredCount cfg now p slots = 0 := by
      rw [expiredCount, List.countP_eq_zero]
      simpa using none_left
    rw [expiredCount_cons_of_expired expired, none_expired]
    omega

/-- An orderly sweep is justified, switches at most once and leaves counter and tally in agreement. -/
theorem sweepSlots_justified {cfg : Kconfig} {env : Env} {p p' : Proxy N} {t : Tally N} {slots : List (Fin N)}
    {acts : List (Action N)} (distinct : slots.Nodup) (orderly : Orderly cfg env.now p t slots)
    (agree : p.consecutiveTimeouts = t.timeouts) (below : p.consecutiveTimeouts < cfg.upstreamFailThreshold)
    (swept : sweepSlots cfg env p slots = .ok (p', acts)) :
    Justified cfg.upstreamFailThreshold t acts ∧ failovers acts ≤ 1 ∧
      p'.consecutiveTimeouts = (acts.foldl Tally.act t).timeouts ∧ p'.consecutiveTimeouts < cfg.upstreamFailThreshold := by
  induction slots generalizing p t acts with
  | nil =>
    cases swept
    exact ⟨trivial, Nat.zero_le _, agree, below⟩
  | cons slot slots ih =>
    obtain ⟨absent, distinct⟩ := List.nodup_cons.mp distinct
    obtain ⟨p₁, sent, rest, first, later, rfl⟩ := sweepSlots_cons swept
    by_cases expired : Expired cfg env.now (p.pending slot)
    · have fresh := orderly.fresh slot (List.mem_cons_self ..) expired
      obtain ⟨frees, ⟨room, counted, rfl⟩ | ⟨reached, reset, rfl⟩⟩ := sweepSlot_expired expired first
      · have agree' : p₁.consecutiveTimeouts = (t.act (timeoutAction p slot)).timeouts := by
          rw [counted, act_timeoutAction_fresh fresh, agree]
        obtain ⟨justified, once, after⟩ :=
          ih distinct ((Orderly.timedOut expired fresh frees counted absent).mp orderly) agree' (by omega) later
        exact ⟨⟨nofun, justified⟩, by simpa [failovers, timeoutAction] using once, after⟩
      · -- the threshold is reached by the last expired query
        have few := orderly.few
        rw [expiredCount_cons_of_expired expired] at few
        obtain ⟨rfl, rfl⟩ := sweepSlots_idle (by rw [expiredCount_frees frees absent]; omega) later
        refine ⟨⟨nofun, fun _ => ?_, trivial⟩, by simp [failovers, timeoutAction], reset, by omega⟩
        rw [act_timeoutAction_fresh fresh, ← agree]
        exact reached
    · rw [sweepSlot_idle expired] at first
      cases first
      exact ih distinct ((Orderly.waiting expired).mp orderly) agree below later

/-- A counter ahead of the tally stays ahead for the rest of a justified sweep. -/
theorem sweepSlots_behind {cfg : Kconfig} {env : Env} {p p' : Proxy N} {t : Tally N} {slots : List (Fin N)}
    {acts : List (Action N)} (behind : t.timeouts < p.consecutiveTimeouts)
    (below : p.consecutiveTimeouts < cfg.upstreamFailThreshold) (swept : sweepSlots cfg env p slots = .ok (p', acts))
    (justified : Justified cfg.upstreamFailThreshold t acts) :
    (acts.foldl Tally.act t).timeouts < p'.consecutiveTimeouts := by
  induction slots generalizing p t acts with
  | nil =>
    cases swept
    exact behind
  | cons slot slots ih =>
    obtain ⟨p₁, sent, rest, first, later, rfl⟩ := sweepSlots_cons swept
    by_cases expired : Expired cfg env.now (p.pending slot)
    · have atMost := act_timeoutAction_le t p slot
      obtain ⟨-, ⟨room, counted, rfl⟩ | ⟨reached, -, rfl⟩⟩ := sweepSlot_expired expired first
      · have behind' : (t.act (timeoutAction p slot)).timeouts < p₁.consecutiveTimeouts := by omega
        have after := ih behind' (by omega) later justified.2
        exact after
      · have enough := justified.2.1 rfl
        omega
    · rw [sweepSlot_idle expired] at first
      cases first
      exact ih behind below later justified

/-- Only an orderly sweep is justified and leaves the counter within the tally. -/
theorem sweepSlots_orderly {cfg : Kconfig} {env : Env} {p p' : Proxy N} {t : Tally N} {slots : List (Fin N)}
    {acts : List (Action N)} (distinct : slots.Nodup) (agree : p.consecutiveTimeouts = t.timeouts)
    (below : p.consecutiveTimeouts < cfg.upstreamFailThreshold) (swept : sweepSlots cfg env p slots = .ok (p', acts))
    (justified : Justified cfg.upstreamFailThreshold t acts)
    (within : p'.consecutiveTimeouts ≤ (acts.foldl Tally.act t).timeouts) : Orderly cfg env.now p t slots := by
  induction slots generalizing p t acts with
  | nil => exact ⟨nofun, Nat.le_of_lt below⟩
  | cons slot slots ih =>
    obtain ⟨absent, distinct⟩ := List.nodup_cons.mp distinct
    obtain ⟨p₁, sent, rest, first, later, rfl⟩ := sweepSlots_cons swept
    by_cases expired : Expired cfg env.now (p.pending slot)
    · obtain ⟨frees, ⟨room, counted, rfl⟩ | ⟨reached, reset, rfl⟩⟩ := sweepSlot_expired expired first
      · rcases fresh : t.fresh slot with _ | _
        · have behind : (t.act (timeoutAction p slot)).timeouts < p₁.consecutiveTimeouts := by
            rw [act_timeoutAction_stale fresh]
            omega
          have := sweepSlots_behind behind (by omega) later justified.2
          exact absurd within (Nat.not_le_of_lt this)
        · have agree' : p₁.consecutiveTimeouts = (t.act (timeoutAction p slot)).timeouts := by
            rw [counted, act_timeoutAction_fresh fresh, agree]
          exact (Orderly.timedOut expired fresh frees counted absent).mpr
            (ih distinct agree' (by omega) later justified.2 within)
      · have enough := justified.2.1 rfl
        have fresh : t.fresh slot = true := by
          by_contra stale
          rw [act_timeoutAction_stale (Bool.eq_false_of_not_eq_true stale)] at enough
          omega
        -- after the switch no query is fresh, so none can have expired
        have rest_orderly := ih distinct (t := {}) reset (by omega) later justified.2.2 within
        refine Orderly.last expired fresh below fun other inside expired' => ?_
        have there : other ≠ slot := by
          rintro rfl
          exact absent inside
        rw [← frees.others other there] at expired'
        exact Bool.false_ne_true (rest_orderly.fresh other inside expired')
    · rw [sweepSlot_idle expired] at first
      cases first
      exact (Orderly.waiting expired).mpr (ih distinct agree below later justified within)

/-! ## One turn -/

/-- A datagram of a client starts no failover and leaves the tally's count. -/
theorem handleClientDatagram_tally {cfg : Kconfig} {bs : Bsearch} {env : Env} {p p' : Proxy N} {sock : ListenSock}
    {client : SockAddr} {data : List Byte} {stale : Fin dnsWireMaxMsgLen → Byte} {acts : List (Action N)} (t : Tally N)
    (handled : handleClientDatagram cfg bs env p sock client data stale = .ok (p', acts)) :
    p'.consecutiveTimeouts = p.consecutiveTimeouts ∧ .failedOver ∉ acts ∧
      (acts.foldl Tally.act t).timeouts = t.timeouts := by
  by_cases received : data = []
  · subst received
    cases handled
    exact ⟨rfl, by simp, rfl⟩
  · cases handleClientDatagram_step received handled with
    | blocked txid same => exact ⟨same.timeouts, by simp, rfl⟩
    | refused full same => exact ⟨same.timeouts, by simp, rfl⟩
    | forward free holds sent takes => exact ⟨takes.timeouts, by simp, rfl⟩

theorem justified_of_none {threshold : Nat} {t : Tally N} {acts : List (Action N)} (absent : .failedOver ∉ acts) :
    Justified threshold t acts := by
  induction acts generalizing t with
  | nil => trivial
  | cons a acts ih =>
    refine ⟨fun switch => absurd ?_ absent, ih fun member => absent (List.mem_cons_of_mem _ member)⟩
    rw [switch]
    exact List.mem_cons_self ..

end

section

variable {cfg : Kconfig} {bs : Bsearch} {upstreamSock : Int} {past : List (Turn (Env × Input) (Action cfg.maxPending))}
  {p : Proxy cfg.maxPending}

/-- No turn but a sweep starts a failover or makes counter and tally differ. -/
theorem turn_tally {env : Env} {input : Input} {p' : Proxy cfg.maxPending} {acts : List (Action cfg.maxPending)}
    {t : Tally cfg.maxPending} (other : input ≠ .sweep) (agree : p.consecutiveTimeouts = t.timeouts)
    (below : p.consecutiveTimeouts < cfg.upstreamFailThreshold) (taken : turn cfg bs p (env, input) = .ok (p', acts)) :
    .failedOver ∉ acts ∧ p'.consecutiveTimeouts = (acts.foldl Tally.act t).timeouts ∧
      p'.consecutiveTimeouts < cfg.upstreamFailThreshold := by
  have positive : 0 < cfg.upstreamFailThreshold := Nat.zero_lt_of_lt below
  cases input with
  | client sock addr data stale =>
    obtain ⟨same, no_switch, kept⟩ := handleClientDatagram_tally t taken
    exact ⟨no_switch, by rw [same, kept, agree], by rwa [same]⟩
  | upstream data stale =>
    obtain ⟨same, rfl⟩ | ⟨slot, -, -, -, reset, rfl⟩ := handleUpstreamDatagram_cases (Except.ok.inj taken)
    · exact ⟨by simp, by rw [same.timeouts]; exact agree, by rwa [same.timeouts]⟩
    · exact ⟨by simp, reset, by rwa [reset]⟩
  | sweep => exact absurd rfl other
  | applyUpstreamConfig =>
    cases taken
    exact ⟨by simp, rfl, positive⟩

/-! ## Over whole runs -/

/-- What is asked of the failovers of a run: enough queries of the upstream that was left had timed out, a turn
switches at most once, and the counter counts no timeout of an earlier upstream. -/
structure FailoversJustified (cfg : Kconfig) (past : List (Turn (Env × Input) (Action cfg.maxPending)))
    (p : Proxy cfg.maxPending) : Prop where
  justified : Justified cfg.upstreamFailThreshold {} (past.flatMap Prod.snd)
  once : ∀ t ∈ past, failovers t.2 ≤ 1
  counted : p.consecutiveTimeouts ≤ (tally past).timeouts

/-- The runs whose sweeps find only expired queries of the upstream in force, no more than the threshold still allows. -/
abbrev OrderlyRun (cfg : Kconfig) (bs : Bsearch) (upstreamSock : Int) :=
  Handler.Run (turn cfg bs)
    (fun past p input => input.2 = .sweep → Orderly cfg input.1.now p (tally past) (List.finRange cfg.maxPending))
    (dnsProxyStart cfg upstreamSock)

/-- The failovers so far are justified, and counter and tally agree. -/
structure Settled (cfg : Kconfig) (past : List (Turn (Env × Input) (Action cfg.maxPending)))
    (p : Proxy cfg.maxPending) : Prop where
  justified : Justified cfg.upstreamFailThreshold {} (past.flatMap Prod.snd)
  once : ∀ t ∈ past, failovers t.2 ≤ 1
  agree : p.consecutiveTimeouts = (tally past).timeouts
  below : p.consecutiveTimeouts < cfg.upstreamFailThreshold

theorem Settled.failoversJustified (h : Settled cfg past p) : FailoversJustified cfg past p :=
  ⟨h.justified, h.once, Nat.le_of_eq h.agree⟩

/-- One more turn, of which the same is known. -/
theorem Settled.turn (h : Settled cfg past p) {input : Env × Input} {p' : Proxy cfg.maxPending}
    {acts : List (Action cfg.maxPending)} (justified : Justified cfg.upstreamFailThreshold (tally past) acts)
    (once : failovers acts ≤ 1) (agree : p'.consecutiveTimeouts = (acts.foldl Tally.act (tally past)).timeouts)
    (below : p'.consecutiveTimeouts < cfg.upstreamFailThreshold) : Settled cfg (past ++ [(input, acts)]) p' where
  justified := by
    rw [List.flatMap_append, justified_append, List.flatMap_singleton]
    exact ⟨h.justified, justified⟩
  once t member := by
    rcases List.mem_append.mp member with before | now
    · exact h.once t before
    · rw [List.mem_singleton.mp now]
      exact once
  agree := by
    rw [tally_append]
    exact agree
  below := below

theorem settled_start (positive : 1 ≤ cfg.upstreamFailThreshold) : Settled cfg [] (dnsProxyStart cfg upstreamSock) where
  justified := trivial
  once _ member := by cases member
  agree := rfl
  below := positive

theorem settled_run (positive : 1 ≤ cfg.upstreamFailThreshold) (run : OrderlyRun cfg bs upstreamSock past p) :
    Settled cfg past p := by
  apply run.invariant (Settled cfg) (settled_start positive)
  intro past p input p' acts _ h orderly taken
  obtain ⟨env, input⟩ := input
  by_cases sweeps : input = .sweep
  · subst sweeps
    obtain ⟨justified, once, agree, below⟩ :=
      sweepSlots_justified (List.nodup_finRange _) (orderly rfl) h.agree h.below taken
    exact h.turn justified once agree below
  · obtain ⟨no_switch, agree, below⟩ := turn_tally sweeps h.agree h.below taken
    refine h.turn (justified_of_none no_switch) ?_ agree below
    rw [failovers, List.count_eq_zero_of_not_mem no_switch]
    exact Nat.zero_le _

/-- **The failovers of orderly runs are justified, and no further sweep is but an orderly one.** -/
theorem failovers_justified_iff (positive : 1 ≤ cfg.upstreamFailThreshold)
    (run : OrderlyRun cfg bs upstreamSock past p) :
    FailoversJustified cfg past p ∧
      ∀ env p' acts, turn cfg bs p (env, .sweep) = .ok (p', acts) →
        (FailoversJustified cfg (past ++ [((env, .sweep), acts)]) p' ↔
          Orderly cfg env.now p (tally past) (List.finRange cfg.maxPending)) := by
  have settled := settled_run positive run
  refine ⟨settled.failoversJustified, fun env p' acts taken => ⟨fun h => ?_, fun orderly => ?_⟩⟩
  · have justified := h.justified
    have counted := h.counted
    rw [List.flatMap_append, justified_append, List.flatMap_singleton] at justified
    rw [tally_append] at counted
    exact sweepSlots_orderly (List.nodup_finRange _) settled.agree settled.below taken justified.2 counted
  · obtain ⟨justified, once, agree, below⟩ :=
      sweepSlots_justified (List.nodup_finRange _) orderly settled.agree settled.below taken
    exact (settled.turn justified once agree below).failoversJustified

end

/-- A table of two slots and a failover after every timeout. -/
def twoSlots : Kconfig := { maxPending := 2, upstreamTimeoutMs := 3000, upstreamFailThreshold := 1, queryLogSize := 4 }

/-- A query of two bytes from a client behind a port. -/
def queryFrom (port : BitVec 16) : Env × Input :=
  (quietEnv 0, .client .v4 (clientAt port) [0x12#8, 0x34#8] fun _ => 0#8)

/-- The failover that a single expired query brings about is justified. -/
theorem one_timeout_justified : ∃ past p, OrderlyRun twoSlots .binary 3 past p ∧
    ∃ p' acts, turn twoSlots .binary p (quietEnv 3000000, .sweep) = .ok (p', acts) ∧ failovers acts = 1 ∧
      FailoversJustified twoSlots (past ++ [((quietEnv 3000000, .sweep), acts)]) p' := by
  have computed : (Handler.exec (turn twoSlots .binary) (dnsProxyStart twoSlots 3) [queryFrom 5000#16]).map (fun done =>
      ((turn twoSlots .binary done.1 (quietEnv 3000000, .sweep)).map fun next => failovers next.2,
        decide (Orderly twoSlots 3000000 done.1 (tally done.2) (List.finRange 2)))) = .ok (.ok 1, true) := by
    decide +kernel
  obtain ⟨⟨p, past⟩, done, found⟩ := exists_of_map_eq_ok computed
  simp only [Prod.mk.injEq, decide_eq_true_eq] at found
  obtain ⟨switches, orderly⟩ := found
  obtain ⟨⟨p', acts⟩, taken, once⟩ := exists_of_map_eq_ok switches
  have run : OrderlyRun twoSlots .binary 3 past p := Handler.run_exec .start (by simp [queryFrom]) done
  have justified := failovers_justified_iff (by decide) run
  exact ⟨past, p, run, p', acts, taken, once, (justified.2 _ p' acts taken).mpr orderly⟩

/-- Two queries that expire in one sweep switch the upstream twice, the second time without a query of its own. -/
theorem one_sweep_switches_twice : ¬ ∀ past p,
    Handler.Run (turn twoSlots .binary) (fun _ _ _ => True) (dnsProxyStart twoSlots 3) past p →
      FailoversJustified twoSlots past p := by
  have computed : (Handler.exec (turn twoSlots .binary) (dnsProxyStart twoSlots 3)
      [queryFrom 5000#16, queryFrom 5001#16, (quietEnv 3000000, .sweep)]).map
        (fun done => done.2.map fun t => failovers t.2) = .ok [0, 0, 2] := by
    decide +kernel
  obtain ⟨⟨p, past⟩, done, switches⟩ := exists_of_map_eq_ok computed
  have twice : 2 ∈ past.map fun t => failovers t.2 := by
    rw [switches]
    decide
  obtain ⟨t, member, two⟩ := List.mem_map.mp twice
  intro justified
  have once := (justified past p (Handler.run_exec .start (fun _ _ _ _ => trivial) done)).once t member
  omega

end EspAdblocker.Dns
