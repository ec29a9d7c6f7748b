import EspAdblocker.Dns.Marking
import EspAdblocker.Lib.Tasks

/-!
# The sockets of the service

`dns_proxy_task` waits on three descriptors and replaces one of them when it
fails over; the HTTP task replaces the same one when the settings change. Here
the two tasks take turns operation by operation, the descriptors that are open
belong to the world, and `socket()` and `connect()` are free to fail. What a task
does between two waits is a list of turns of the proxy, so that everything proved
of turns holds of these runs.
-/

namespace EspAdblocker.Dns

open EspAdblocker.Lib EspAdblocker.Storage

/-! ## Operations -/

/-- What the two tasks do with the sockets and with the statics of the proxy. -/
inductive SockOp (N : Nat) where
  | socket
  | close (fd : Int)
  | bind (fd : Int)
  | setsockopt (fd : Int)
  | connect (fd : Int)
  | getUpstreamSock
  | setUpstreamSock (fd : Int)
  | getListenSock (sock : ListenSock)
  | setListenSock (sock : ListenSock) (fd : Int)
  | xTaskCreate
  | fdSet (fd : Int)
  | select (nfds : Int)
  /-- The return from `select()`, with its result. -/
  | ready
  | fdIsset (fd : Int)
  | handleClientDatagram (sock : ListenSock)
  | handleUpstreamDatagram
  | getTime
  /-- `sweep_timeouts` on one slot, up to its check of the threshold. -/
  | timeOut (slot : Fin N) (now : Int)
  /-- The assignments of `fail_over_upstream`. -/
  | switchUpstream
  /-- The assignments of `dns_proxy_apply_upstream_config`. -/
  | firstUpstream

/-- The results of the operations. -/
abbrev SockOp.Res {N : Nat} : SockOp N → Type
  | socket | getUpstreamSock | getListenSock _ | ready | getTime => Int
  | bind _ | setsockopt _ | connect _ | xTaskCreate | fdIsset _ | timeOut .. => Bool
  | _ => Unit

/-- A program of one of the tasks. -/
abbrev ServiceM (N : Nat) := Prog (SockOp N) SockOp.Res

/-- The statics of the proxy, and the descriptors that it has opened and not closed since. -/
structure Service (N : Nat) where
  proxy : Proxy N
  listenSock : ListenSock → Int := fun _ => -1
  opened : List Int := []

namespace Service

/-- What an operation may return and leave. -/
def step (cfg : Kconfig) (bs : Bsearch) (w : Service cfg.maxPending) :
    (op : SockOp cfg.maxPending) → op.Res → Service cfg.maxPending → Prop
  | .socket, fd, w' => (fd < 0 ∧ w' = w) ∨ (0 ≤ fd ∧ fd ∉ w.opened ∧ w' = { w with opened := fd :: w.opened })
  | .close fd, _, w' => w' = { w with opened := w.opened.filter (· ≠ fd) }
  | .getUpstreamSock, fd, w' => fd = w.proxy.upstreamSock ∧ w' = w
  | .setUpstreamSock fd, _, w' => w' = { w with proxy.upstreamSock := fd }
  | .getListenSock sock, fd, w' => fd = w.listenSock sock ∧ w' = w
  | .setListenSock sock fd, _, w' => w' = { w with listenSock := Function.update w.listenSock sock fd }
  | .handleClientDatagram sock, _, w' => ∃ env addr data stale p acts,
      Dns.handleClientDatagram cfg bs env w.proxy sock addr data stale = .ok (p, acts) ∧ w' = { w with proxy := p }
  | .handleUpstreamDatagram, _, w' => ∃ data stale, w' = { w with proxy := (Dns.handleUpstreamDatagram w.proxy data stale).1 }
  | .timeOut slot now, reached, w' =>
      if Expired cfg now (w.proxy.pending slot) then
        ∃ env p, env.now = now ∧ timeOutSlot cfg env w.proxy slot = .ok p ∧
          reached = decide (p.consecutiveTimeouts ≥ cfg.upstreamFailThreshold) ∧ w' = { w with proxy := p }
      else reached = false ∧ w' = w
  | .switchUpstream, _, w' => w' = { w with
      proxy.upstreamIndex := if w.proxy.upstreamIndex = 0 then 1 else 0
      proxy.consecutiveTimeouts := 0 }
  | .firstUpstream, _, w' => w' = { w with proxy.upstreamIndex := 0, proxy.consecutiveTimeouts := 0 }
  | .bind _, _, w' | .setsockopt _, _, w' | .connect _, _, w' | .xTaskCreate, _, w' | .fdSet _, _, w'
  | .select _, _, w' | .ready, _, w' | .fdIsset _, _, w' | .getTime, _, w' => w' = w

/-! ## Programs -/

section

variable {N : Nat}

/-- One operation. -/
abbrev perform (op : SockOp N) : ServiceM N op.Res := Prog.perform op

/-- `connect_upstream_socket` from its `socket()` on. -/
def openUpstreamSocket : ServiceM N EspErr := do
  perform (.setUpstreamSock (← perform .socket))
  if (← perform .getUpstreamSock) ≥ 0 then
    if ← perform (.connect (← perform .getUpstreamSock)) then return .ok
    else
      perform (.close (← perform .getUpstreamSock))
      perform (.setUpstreamSock (-1))
      return .fail
  else return .fail

/-- `connect_upstream_socket`, operation by operation. -/
def connectUpstreamSocket : ServiceM N EspErr := do
  if (← perform .getUpstreamSock) ≥ 0 then
    perform (.close (← perform .getUpstreamSock))
  openUpstreamSocket

/-- `fail_over_upstream`, operation by operation. -/
def failOverUpstream : ServiceM N Unit := do
  perform .switchUpstream
  let _ ← connectUpstreamSocket

/-- `dns_proxy_apply_upstream_config`, operation by operation. -/
def dnsProxyApplyUpstreamConfig : ServiceM N Unit := do
  perform .firstUpstream
  let _ ← connectUpstreamSocket

/-- The loop of `sweep_timeouts` over the slots that are left, operation by operation. -/
def sweepSlots (now : Int) : List (Fin N) → ServiceM N Unit
  | [] => return ()
  | slot :: slots => do
    if ← perform (.timeOut slot now) then failOverUpstream
    sweepSlots now slots

/-- `sweep_timeouts`, operation by operation. -/
def sweepTimeouts : ServiceM N Unit := do
  sweepSlots (← perform .getTime) (List.finRange N)

/-- `dns_proxy_task` from the top of its loop to the call of `select()`. -/
def waitForDatagrams : ServiceM N Unit := do
  perform (.fdSet (← perform (.getListenSock .v4)))
  perform (.fdSet (← perform (.getListenSock .v6)))
  perform (.fdSet (← perform .getUpstreamSock))
  let v4 ← perform (.getListenSock .v4)
  let v6 ← perform (.getListenSock .v6)
  let up ← perform .getUpstreamSock
  let maxfd := if v6 > v4 then v6 else v4
  let maxfd := if up > maxfd then up else maxfd
  perform (.select (maxfd + 1))

/-- A listening socket of `dns_proxy_task` that may be ready. -/
def serveListenSock (sock : ListenSock) : ServiceM N Unit := do
  if ← perform (.fdIsset (← perform (.getListenSock sock))) then perform (.handleClientDatagram sock)

/-- The upstream socket of `dns_proxy_task`, which may be ready. -/
def serveUpstreamSock : ServiceM N Unit := do
  if ← perform (.fdIsset (← perform .getUpstreamSock)) then perform .handleUpstreamDatagram

/-- What `dns_proxy_task` does when a socket is ready. -/
def serveReady : ServiceM N Unit := do
  serveListenSock .v4
  serveListenSock .v6
  serveUpstreamSock

/-- `dns_proxy_task` from the return of `select()` to the bottom of its loop. -/
def serveDatagrams : ServiceM N Unit := do
  if (← perform .ready) > 0 then serveReady
  sweepTimeouts

/-- `dns_proxy_start` from its first `socket()` on. -/
def dnsProxyStart : ServiceM N EspErr := do
  perform (.setListenSock .v4 (← perform .socket))
  let v4 ← perform (.getListenSock .v4)
  if v4 ≥ 0 then
    if ← perform (.bind v4) then
      perform (.setListenSock .v6 (← perform .socket))
      let v6 ← perform (.getListenSock .v6)
      if v6 ≥ 0 then
        if ← perform (.setsockopt v6) then
          if ← perform (.bind v6) then
            let err ← connectUpstreamSocket
            if err ≠ .ok then return err
            else if ← perform .xTaskCreate then return .ok
            else return .noMem
          else return .fail
        else return .fail
      else return .fail
    else return .fail
  else return .fail

end

/-- The tasks that touch the sockets. -/
inductive Owner where
  | dnsProxy
  | httpd
  deriving DecidableEq, Repr

/-- What a task does between two waits: the proxy task serves and waits again, the HTTP task applies new settings. -/
def launch {N : Nat} : Owner → ServiceM N Unit
  | .dnsProxy => serveDatagrams.bind fun _ => waitForDatagrams
  | .httpd => dnsProxyApplyUpstreamConfig

/-- The semantics of the two tasks. -/
def sem (cfg : Kconfig) (bs : Bsearch) : Sem (SockOp cfg.maxPending) SockOp.Res (Service cfg.maxPending) where
  step := step cfg bs
  torn _ _ _ := False

end Service

section

variable {cfg : Kconfig} {bs : Bsearch}

/-! ## The programs are turns -/

/-- Turns of the task lead from one state of the statics to the other. -/
def TurnsLead (cfg : Kconfig) (bs : Bsearch) (p p' : Proxy cfg.maxPending) : Prop :=
  ∃ past, Handler.Run (turn cfg bs) (fun _ _ _ => True) p past p'

theorem TurnsLead.refl (p : Proxy cfg.maxPending) : TurnsLead cfg bs p p := ⟨[], .start⟩

theorem TurnsLead.trans {p q r : Proxy cfg.maxPending} (first : TurnsLead cfg bs p q) (second : TurnsLead cfg bs q r) :
    TurnsLead cfg bs p r := by
  obtain ⟨past, run⟩ := first
  obtain ⟨past', run'⟩ := second
  exact ⟨past ++ past', run.trans run'⟩

theorem TurnsLead.single {p p' : Proxy cfg.maxPending} {acts : List (Action cfg.maxPending)} {input : Env × Input}
    (taken : turn cfg bs p input = .ok (p', acts)) : TurnsLead cfg bs p p' :=
  ⟨_, .turn .start trivial taken⟩

/-- `connect_upstream_socket` leaves what its two calls decide. -/
theorem connectUpstreamSocket_ends (w : Service cfg.maxPending) :
    (Service.sem cfg bs).Ends Service.connectUpstreamSocket
      (fun _ v => ∃ attempt, v.proxy = { w.proxy with upstreamSock := connectUpstreamSocket attempt }) w := by
  have opens (w : Service cfg.maxPending) : (Service.sem cfg bs).Ends Service.openUpstreamSocket
      (fun _ v => ∃ attempt, v.proxy = { w.proxy with upstreamSock := connectUpstreamSocket attempt }) w := by
    simp only [Service.openUpstreamSocket, Prog.bind_eq, Prog.pure_eq, Service.perform, Prog.perform_bind]
    refine Sem.ends_call fun fd w₁ created => Sem.ends_call fun _ w₂ assigned => Sem.ends_call fun fd₁ w₃ read => ?_
    have same : w₁.proxy = w.proxy := by
      rcases created with ⟨-, rfl⟩ | ⟨-, -, rfl⟩ <;> rfl
    obtain rfl := assigned
    obtain ⟨rfl, rfl⟩ := read
    split
    · rename_i valid
      refine Sem.ends_call fun fd₂ w₄ read => Sem.ends_call fun succeeded w₅ connected => ?_
      obtain ⟨rfl, rfl⟩ := read
      obtain rfl := connected
      cases succeeded with
      | true =>
        refine Sem.ends_ret ⟨(fd₂, true), ?_⟩
        rw [connectUpstreamSocket, if_pos valid, if_pos rfl, same]
      | false =>
        refine Sem.ends_call fun fd₃ w₆ read => Sem.ends_call fun _ w₇ freed => Sem.ends_call fun _ w₈ assigned => ?_
        obtain ⟨rfl, rfl⟩ := read
        obtain rfl := freed
        obtain rfl := assigned
        refine Sem.ends_ret ⟨(fd₃, false), ?_⟩
        rw [connectUpstreamSocket, if_pos valid, if_neg Bool.false_ne_true, same]
    · rename_i shut
      refine Sem.ends_ret ⟨(fd₁, false), ?_⟩
      rw [connectUpstreamSocket, if_neg shut, same]
  simp only [Service.connectUpstreamSocket, Prog.bind_eq, Service.perform, Prog.perform_bind]
  refine Sem.ends_call fun fd w₁ read => ?_
  obtain ⟨rfl, rfl⟩ := read
  split
  · refine Sem.ends_call fun fd₁ w₂ read => Sem.ends_call fun _ w₃ freed => ?_
    obtain ⟨rfl, rfl⟩ := read
    obtain rfl := freed
    exact opens _
  · exact opens _

/-- A turn of the loop of `sweep_timeouts` depends on the environment of its slot alone. -/
theorem sweepSlot_congr {env env' : Env} {slot : Fin cfg.maxPending} (now : env.now = env'.now)
    (log : env.logTime slot = env'.logTime slot) (attempt : env.attempt slot = env'.attempt slot)
    (p : Proxy cfg.maxPending) : sweepSlot cfg env p slot = sweepSlot cfg env' p slot := by
  rw [sweepSlot, sweepSlot, timeOutSlot, timeOutSlot, now, log, attempt]

theorem sweepSlots_congr {env env' : Env} {slots : List (Fin cfg.maxPending)} (now : env.now = env'.now)
    (same : ∀ slot ∈ slots, env.logTime slot = env'.logTime slot ∧ env.attempt slot = env'.attempt slot)
    (p : Proxy cfg.maxPending) : sweepSlots cfg env p slots = sweepSlots cfg env' p slots := by
  induction slots generalizing p with
  | nil => rfl
  | cons slot slots ih =>
    obtain ⟨log, attempt⟩ := same slot List.mem_cons_self
    have rest := ih fun other member => same other (List.mem_cons_of_mem _ member)
    simp only [sweepSlots, sweepSlot_congr now log attempt, rest]

/-- One environment serves a slot and the slots behind it. -/
theorem sweepSlots_joined {env env₁ : Env} {p p₁ p' : Proxy cfg.maxPending} {slot : Fin cfg.maxPending}
    {slots : List (Fin cfg.maxPending)} {sent acts : List (Action cfg.maxPending)} (fresh : slot ∉ slots)
    (now : env₁.now = env.now) (first : sweepSlot cfg env₁ p slot = .ok (p₁, sent))
    (rest : sweepSlots cfg env p₁ slots = .ok (p', acts)) :
    ∃ env', env'.now = env.now ∧ sweepSlots cfg env' p (slot :: slots) = .ok (p', sent ++ acts) := by
  let env' : Env := { env with
    logTime := Function.update env.logTime slot (env₁.logTime slot)
    attempt := Function.update env.attempt slot (env₁.attempt slot) }
  have here : sweepSlot cfg env' p slot = .ok (p₁, sent) := by
    rw [← first]
    have log : env'.logTime slot = env₁.logTime slot := Function.update_self ..
    have attempt : env'.attempt slot = env₁.attempt slot := Function.update_self ..
    have same : env'.now = env₁.now := now.symm
    exact sweepSlot_congr same log attempt p
  have behind : sweepSlots cfg env' p₁ slots = .ok (p', acts) := by
    rw [← rest]
    apply sweepSlots_congr (show env'.now = env.now from rfl)
    intro other member
    have elsewhere : (other : Nat) ≠ slot := by
      intro same
      rw [Fin.ext same] at member
      exact fresh member
    exact ⟨Function.update_of_ne elsewhere .., Function.update_of_ne elsewhere ..⟩
  refine ⟨env', rfl, ?_⟩
  simp only [sweepSlots, here, behind, bind, Except.bind]
  rfl

theorem sweepSlot_timed {env : Env} {p p₁ : Proxy cfg.maxPending} {slot : Fin cfg.maxPending}
    (expired : Expired cfg env.now (p.pending slot)) (timed : timeOutSlot cfg env p slot = .ok p₁) :
    ∃ sent, sweepSlot cfg env p slot =
      .ok (if p₁.consecutiveTimeouts ≥ cfg.upstreamFailThreshold then failOverUpstream p₁ (env.attempt slot) else p₁, sent) := by
  simp only [sweepSlot, if_pos expired, timed, bind, Except.bind]
  split <;> exact ⟨_, rfl⟩

/-- The loop of `sweep_timeouts` operation by operation is the loop over its slots. -/
theorem sweepSlots_ends (w : Service cfg.maxPending) (now : Int) {slots : List (Fin cfg.maxPending)} (nodup : slots.Nodup) :
    (Service.sem cfg bs).Ends (Service.sweepSlots now slots)
      (fun _ v => ∃ env acts, env.now = now ∧ sweepSlots cfg env w.proxy slots = .ok (v.proxy, acts)) w := by
  induction slots generalizing w with
  | nil => exact Sem.ends_ret ⟨quietEnv now, [], rfl, rfl⟩
  | cons slot slots ih =>
    obtain ⟨fresh, nodup⟩ := List.nodup_cons.mp nodup
    have goesOn {env₁ : Env} {v : Service cfg.maxPending} {sent : List (Action cfg.maxPending)} (now₁ : env₁.now = now)
        (first : sweepSlot cfg env₁ w.proxy slot = .ok (v.proxy, sent)) :
        (Service.sem cfg bs).Ends (Service.sweepSlots now slots)
          (fun _ v => ∃ env acts, env.now = now ∧ sweepSlots cfg env w.proxy (slot :: slots) = .ok (v.proxy, acts)) v := by
      refine (ih v nodup).mono ?_
      rintro _ v' ⟨env, acts, now', swept⟩
      obtain ⟨env', same, swept'⟩ := sweepSlots_joined fresh (now₁.trans now'.symm) first swept
      exact ⟨env', _, same.trans now', swept'⟩
    simp only [Service.sweepSlots, Prog.bind_eq, Service.perform, Prog.perform_bind]
    refine Sem.ends_call fun reached v timed => ?_
    simp only [Service.sem, Service.step] at timed
    split at timed
    · rename_i expired
      obtain ⟨env₁, p, rfl, timed, rfl, rfl⟩ := timed
      split
      · rename_i threshold
        rw [decide_eq_true_eq] at threshold
        simp only [Service.failOverUpstream, Prog.bind_eq, Prog.pure_eq, Service.perform, Prog.perform_bind]
        refine Sem.ends_bind (Sem.ends_call fun _ v switched => Sem.ends_bind ?_)
        refine (connectUpstreamSocket_ends v).mono ?_
        rintro _ v' ⟨attempt, connected⟩
        obtain rfl := switched
        let env : Env := { env₁ with attempt := fun _ => attempt }
        have expired' : Expired cfg env.now (w.proxy.pending slot) := expired
        have timed' : timeOutSlot cfg env w.proxy slot = .ok p := timed
        obtain ⟨sent, first⟩ := sweepSlot_timed expired' timed'
        rw [if_pos threshold] at first
        have reached : v'.proxy = failOverUpstream p (env.attempt slot) := connected
        rw [← reached] at first
        have now₁ : env.now = env₁.now := rfl
        exact Sem.ends_ret (goesOn now₁ first)
      · rename_i below
        rw [decide_eq_true_eq] at below
        obtain ⟨sent, first⟩ := sweepSlot_timed expired timed
        rw [if_neg below] at first
        exact goesOn (v := { w with proxy := p }) rfl first
    · rename_i waiting
      obtain ⟨rfl, rfl⟩ := timed
      rw [if_neg Bool.false_ne_true]
      have idle : sweepSlot cfg (quietEnv now) v.proxy slot = .ok (v.proxy, []) := sweepSlot_idle waiting
      exact goesOn rfl idle

/-- An operation that leaves the statics of the proxy alone. -/
def SockOp.Still {N : Nat} : SockOp N → Prop
  | fdSet _ | select _ | getListenSock _ | getUpstreamSock | fdIsset _ | ready | getTime => True
  | _ => False

theorem waitForDatagrams_ends (w : Service cfg.maxPending) :
    (Service.sem cfg bs).Ends Service.waitForDatagrams (fun _ v => v.proxy = w.proxy) w := by
  have still : (Service.waitForDatagrams : ServiceM cfg.maxPending Unit).Only SockOp.Still := by
    simp [Service.waitForDatagrams, Prog.Only, SockOp.Still]
  apply Sem.ends_of_only (R := fun w v : Service cfg.maxPending => v.proxy = w.proxy) (fun _ => rfl)
    (fun u v w first second => second.trans first) _ still
  intro v op r v' still stepped
  cases op with
  | fdSet | select | fdIsset | ready | getTime =>
    obtain rfl := stepped
    rfl
  | getListenSock | getUpstreamSock =>
    obtain ⟨-, rfl⟩ := stepped
    rfl
  | _ => exact absurd still id

theorem serveListenSock_ends (w : Service cfg.maxPending) (sock : ListenSock) :
    (Service.sem cfg bs).Ends (Service.serveListenSock sock) (fun _ v => TurnsLead cfg bs w.proxy v.proxy) w := by
  simp only [Service.serveListenSock, Prog.bind_eq, Service.perform, Prog.perform_bind]
  refine Sem.ends_call fun fd v read => ?_
  obtain ⟨rfl, rfl⟩ := read
  refine Sem.ends_call fun received v₁ same => ?_
  obtain rfl : v = v₁ := Eq.symm same
  split
  · refine Sem.ends_call fun _ v₂ handled => Sem.ends_ret ?_
    obtain ⟨env, addr, data, stale, p, acts, handled, rfl⟩ := handled
    apply TurnsLead.single
    exact (show turn cfg bs v.proxy (env, .client sock addr data stale) = .ok (p, acts) from handled)
  · exact Sem.ends_ret (.refl _)

theorem serveUpstreamSock_ends (w : Service cfg.maxPending) :
    (Service.sem cfg bs).Ends Service.serveUpstreamSock (fun _ v => TurnsLead cfg bs w.proxy v.proxy) w := by
  simp only [Service.serveUpstreamSock, Prog.bind_eq, Service.perform, Prog.perform_bind]
  refine Sem.ends_call fun fd v read => ?_
  obtain ⟨rfl, rfl⟩ := read
  refine Sem.ends_call fun received v₁ same => ?_
  obtain rfl : v = v₁ := Eq.symm same
  split
  · refine Sem.ends_call fun _ v₂ handled => Sem.ends_ret ?_
    obtain ⟨data, stale, rfl⟩ := handled
    apply TurnsLead.single
    exact (show turn cfg bs v.proxy (quietEnv 0, .upstream data stale) = .ok (handleUpstreamDatagram v.proxy data stale) from rfl)
  · exact Sem.ends_ret (.refl _)

/-- **What a task does between two waits is turns**: handlers, a sweep, a reconfiguration. -/
theorem launch_ends (owner : Service.Owner) (w : Service cfg.maxPending) :
    (Service.sem cfg bs).Ends (Service.launch owner) (fun _ v => TurnsLead cfg bs w.proxy v.proxy) w := by
  cases owner with
  | httpd =>
    simp only [Service.launch, Service.dnsProxyApplyUpstreamConfig, Prog.bind_eq, Prog.pure_eq, Service.perform,
      Prog.perform_bind]
    refine Sem.ends_call fun _ v reset => Sem.ends_bind ((connectUpstreamSocket_ends v).mono ?_)
    rintro _ v' ⟨attempt, connected⟩
    obtain rfl := reset
    apply Sem.ends_ret
    apply TurnsLead.single
    show turn cfg bs w.proxy ({ quietEnv 0 with attempt := fun _ => attempt }, .applyUpstreamConfig) = .ok (v'.proxy, [.reconfigured])
    rw [connected]
    rfl
  | dnsProxy =>
    have sweeps (v : Service cfg.maxPending) (before : TurnsLead cfg bs w.proxy v.proxy) :
        (Service.sem cfg bs).Ends Service.sweepTimeouts (fun _ u => TurnsLead cfg bs w.proxy u.proxy) v := by
      simp only [Service.sweepTimeouts, Prog.bind_eq, Service.perform, Prog.perform_bind]
      refine Sem.ends_call fun now v₁ same => ?_
      obtain rfl := same
      refine (sweepSlots_ends v₁ now (List.nodup_finRange _)).mono ?_
      rintro _ u ⟨env, acts, -, swept⟩
      apply before.trans
      apply TurnsLead.single
      exact (show turn cfg bs v₁.proxy (env, .sweep) = .ok (u.proxy, acts) from swept)
    apply Sem.ends_bind
    have serves : (Service.sem cfg bs).Ends Service.serveDatagrams (fun _ v => TurnsLead cfg bs w.proxy v.proxy) w := by
      simp only [Service.serveDatagrams, Service.serveReady, Prog.bind_eq, Service.perform, Prog.perform_bind]
      refine Sem.ends_call fun received v same => ?_
      obtain rfl := same
      split
      · apply Sem.ends_bind
        refine Sem.ends_bind ((serveListenSock_ends v .v4).mono fun _ v₁ first => ?_)
        refine Sem.ends_bind ((serveListenSock_ends v₁ .v6).mono fun _ v₂ second => ?_)
        exact (serveUpstreamSock_ends v₂).mono fun _ v₃ third => sweeps v₃ ((first.trans second).trans third)
      · exact sweeps v (.refl _)
    refine serves.mono fun _ v before => ?_
    refine (waitForDatagrams_ends v).mono fun _ u same => ?_
    rw [same]
    exact before

end

/-! ## Runs of the tasks -/

/-- The operations of a run. -/
abbrev SockTrace (N : Nat) := List (Sem.Done (SockOp N) SockOp.Res)

/-- The tasks at work on the service, with the operations so far. -/
abbrev ServiceTasks (cfg : Kconfig) :=
  Tasks Service.Owner (SockOp cfg.maxPending) SockOp.Res (Service cfg.maxPending × SockTrace cfg.maxPending) Unit

/-- The statics at boot. -/
def Service.boot (cfg : Kconfig) : Service cfg.maxPending where
  proxy := Dns.dnsProxyStart cfg (-1)

/-- The task that `dns_proxy_start` creates begins its loop, the HTTP task waits. -/
def Service.tasks {cfg : Kconfig} (w : Service cfg.maxPending × SockTrace cfg.maxPending) : ServiceTasks cfg :=
  ⟨w, Function.update (fun _ => none) 0 (some (.dnsProxy, Service.waitForDatagrams))⟩

/-- `dns_proxy_start` has succeeded. -/
structure Started (cfg : Kconfig) (bs : Bsearch) (x : ServiceTasks cfg) : Prop where
  start : (Service.sem cfg bs).traced.Runs Service.dnsProxyStart (Service.boot cfg, []) .ok x.world
  tasks : x = Service.tasks x.world

/-- The runs of the two tasks, each in one program at a time. -/
abbrev ServiceRun (cfg : Kconfig) (bs : Bsearch) : ServiceTasks cfg → ServiceTasks cfg → Prop :=
  Tasks.Run (Service.sem cfg bs).traced Service.launch (fun _ _ => False) fun x owner => x.AtRest owner

/-- The runs in which the settings change only while the proxy task waits in `select()`. -/
abbrev WaitingRun (cfg : Kconfig) (bs : Bsearch) : ServiceTasks cfg → ServiceTasks cfg → Prop :=
  Tasks.Run (Service.sem cfg bs).traced Service.launch (fun _ _ => False) fun x _ => x.Quiet

section

variable {cfg : Kconfig} {bs : Bsearch} {x y : ServiceTasks cfg}

/-- An operation on the sockets alone. -/
def SockOp.Opens {N : Nat} : SockOp N → Prop
  | socket | close _ | bind _ | setsockopt _ | connect _ | getUpstreamSock | setUpstreamSock _ | getListenSock _
  | setListenSock .. | xTaskCreate => True
  | _ => False

theorem connectUpstreamSocket_opens {N : Nat} : (Service.connectUpstreamSocket : ServiceM N EspErr).Only SockOp.Opens := by
  simp only [Service.connectUpstreamSocket, Service.openUpstreamSocket, Prog.bind_eq, Prog.pure_eq, Service.perform,
    Prog.perform_bind]
  repeat' first | exact trivial | refine Prog.Only.call trivial fun _ => ?_ | split

theorem dnsProxyStart_opens {N : Nat} : (Service.dnsProxyStart : ServiceM N EspErr).Only SockOp.Opens := by
  simp only [Service.dnsProxyStart, Prog.bind_eq, Prog.pure_eq, Service.perform, Prog.perform_bind]
  repeat' first
    | exact trivial
    | refine connectUpstreamSocket_opens.bind fun _ => ?_
    | refine Prog.Only.call trivial fun _ => ?_
    | split

/-- Opening the sockets leaves the other statics at their start values. -/
theorem dnsProxyStart_ends :
    (Service.sem cfg bs).Ends Service.dnsProxyStart (fun _ v => ∃ upstreamSock, v.proxy = Dns.dnsProxyStart cfg upstreamSock)
      (Service.boot cfg) := by
  have opens := Sem.ends_of_only (S := Service.sem cfg bs)
    (R := fun w v : Service cfg.maxPending => ∃ upstreamSock, v.proxy = { w.proxy with upstreamSock }) (P := SockOp.Opens)
    (fun w => ⟨w.proxy.upstreamSock, rfl⟩) ?_ ?_ dnsProxyStart_opens (Service.boot cfg)
  · exact opens
  · rintro u v w ⟨first, same⟩ ⟨second, same'⟩
    exact ⟨second, by rw [same', same]⟩
  · intro v op r v' opens stepped
    cases op with
    | socket =>
      rcases stepped with ⟨-, rfl⟩ | ⟨-, -, rfl⟩ <;> exact ⟨_, rfl⟩
    | setUpstreamSock fd =>
      obtain rfl := stepped
      exact ⟨fd, rfl⟩
    | getUpstreamSock | getListenSock =>
      obtain ⟨-, rfl⟩ := stepped
      exact ⟨_, rfl⟩
    | close | bind | setsockopt | connect | setListenSock | xTaskCreate =>
      obtain rfl := stepped
      exact ⟨_, rfl⟩
    | _ => exact absurd opens id

/-- In such a run, whenever the proxy task waits, the statics are those of a run of turns. -/
theorem turns_of_waitingRun (started : Started cfg bs x) (run : WaitingRun cfg bs x y) (quiet : y.Quiet) :
    ∃ upstreamSock past, AnyRun cfg bs upstreamSock past y.world.1.proxy := by
  obtain ⟨upstreamSock, fresh⟩ := (dnsProxyStart_ends.traced []) .ok x.world started.start
  have serial : y.Serial (Service.sem cfg bs).traced (fun _ _ => True)
      (fun w => TurnsLead cfg bs (Dns.dnsProxyStart cfg upstreamSock) w.1.proxy) := by
    apply Tasks.Run.serial run (fun _ _ => id) (fun _ _ quiet => quiet)
    · intro owner w before
      apply Sem.Ends.safe
      exact ((launch_ends owner w.1).traced w.2).mono fun _ _ later => before.trans later
    · rw [started.tasks]
      apply Tasks.Serial.advance (x := ⟨x.world, fun _ => none⟩)
      · exact fun _ busy => absurd rfl busy
      · apply Sem.Ends.safe
        refine ((waitForDatagrams_ends x.world.1).traced x.world.2).mono fun _ v same => ?_
        rw [same, fresh]
        exact .refl _
  exact ⟨upstreamSock, serial.resting quiet⟩

end

end EspAdblocker.Dns
