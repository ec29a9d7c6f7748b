import EspAdblocker.Dns.Sockets

/-!
# What the loop selects on

Both callers of `connect_upstream_socket` drop its result, so the loop goes on with
whatever socket it leaves: an open one when its `connect()` succeeds, otherwise -1.
The descriptors given to `FD_SET`, `FD_ISSET` and `select()` are valid exactly as long
as the last of these calls was a `connect()` that succeeded.
-/

namespace EspAdblocker.Dns

open EspAdblocker.Lib EspAdblocker.Storage

/-! ## The handlers keep the socket -/

section

variable {N : Nat}

theorem logQuestion_upstreamSock (cfg : Kconfig) (p : Proxy N) (time : Option Int) (client : SockAddr)
    (question : Option DnsWireQuestion) (result : QueryResult) :
    (p.logQuestion cfg time client question result).upstreamSock = p.upstreamSock := by
  cases question <;> rfl

theorem forwardOrRefuse_upstreamSock {cfg : Kconfig} {env : Env} {p p' : Proxy N} {sock : ListenSock} {client : SockAddr}
    {buf : List Byte} {n : Nat} {question : Option DnsWireQuestion} {acts : List (Action N)}
    (handled : forwardOrRefuse cfg env p sock client buf n question = (p', acts)) : p'.upstreamSock = p.upstreamSock := by
  unfold forwardOrRefuse at handled
  split at handled
  · cases handled
    apply logQuestion_upstreamSock
  · cases handled
    apply logQuestion_upstreamSock

theorem handleClientDatagram_upstreamSock {cfg : Kconfig} {bs : Bsearch} {env : Env} {p p' : Proxy N} {sock : ListenSock}
    {client : SockAddr} {data : List Byte} {stale : Fin dnsWireMaxMsgLen → Byte} {acts : List (Action N)}
    (handled : handleClientDatagram cfg bs env p sock client data stale = .ok (p', acts)) :
    p'.upstreamSock = p.upstreamSock := by
  cases handleClientDatagram_turn handled with
  | empty _ => rfl
  | passed _ _ passed => exact (forwardOrRefuse_upstreamSock passed).trans rfl
  | blocked _ _ => apply logQuestion_upstreamSock

theorem handleUpstreamDatagram_upstreamSock (p : Proxy N) (data : List Byte) (stale : Fin dnsWireMaxMsgLen → Byte) :
    (handleUpstreamDatagram p data stale).1.upstreamSock = p.upstreamSock := by
  cases handled : handleUpstreamDatagram p data stale with
  | mk p' acts =>
    cases handleUpstreamDatagram_turn handled with
    | dropped _ => rfl
    | relayed _ _ _ => rfl

theorem timeOutSlot_upstreamSock {cfg : Kconfig} {env : Env} {p p' : Proxy N} {slot : Fin N}
    (timed : timeOutSlot cfg env p slot = .ok p') : p'.upstreamSock = p.upstreamSock := by
  unfold timeOutSlot at timed
  simp only [bind, Except.bind] at timed
  split at timed
  · cases timed
  · cases timed
    apply logQuestion_upstreamSock

end

/-! ## What the loop selects on -/

/-- The operation is given descriptors to wait on. -/
def SockOp.Selects {N : Nat} : SockOp N → Prop
  | fdSet _ | select _ | fdIsset _ => True
  | _ => False

/-- The operation replaces a socket, or is one step of it. -/
def SockOp.Reconnects {N : Nat} : SockOp N → Prop
  | socket | close _ | connect _ | setUpstreamSock _ | setListenSock .. => True
  | _ => False

/-- In this world the descriptors that an operation is given are valid. -/
structure SelectsValid {N : Nat} (w : Service N) (op : SockOp N) : Prop where
  given : ∀ fd, op = .fdSet fd ∨ op = .fdIsset fd → 0 ≤ fd
  listening : ∀ sock, 0 ≤ w.listenSock sock
  upstream : 0 ≤ w.proxy.upstreamSock
  opened : w.proxy.upstreamSock ∈ w.opened

/-- After an operation: whether the last call of `socket()` or `connect()` was a `connect()` that succeeded. -/
def connected {N : Nat} (before : Bool) : Sem.Done (SockOp N) SockOp.Res → Bool
  | ⟨.socket, _⟩ => false
  | ⟨.connect _, succeeded⟩ => succeeded
  | _ => before

/-- The last call of `socket()` or `connect()` was a `connect()` that succeeded. -/
def LastConnected {N : Nat} (past : SockTrace N) : Prop := past.foldl connected false = true

theorem lastConnected_append {N : Nat} {past : SockTrace N} {e : Sem.Done (SockOp N) SockOp.Res} :
    LastConnected (past ++ [e]) ↔ connected (past.foldl connected false) e = true := by
  rw [LastConnected, List.foldl_append]
  rfl

theorem lastConnected_connect {N : Nat} (past : SockTrace N) (fd : Int) : LastConnected (past ++ [⟨.connect fd, true⟩]) := by
  rw [lastConnected_append]
  rfl

/-- The upstream socket is a descriptor that is open. -/
def UpstreamOpen {N : Nat} (w : Service N) : Prop :=
  0 ≤ w.proxy.upstreamSock ∧ w.proxy.upstreamSock ∈ w.opened

/-- Between two programs: the upstream socket is open exactly when the last call succeeded. -/
structure SocketsSettled {N : Nat} (w : Service N × SockTrace N) : Prop where
  listening : ∀ sock, 0 ≤ w.1.listenSock sock
  upstream : UpstreamOpen w.1 ↔ LastConnected w.2

/-- The descriptors an operation is given are valid exactly when the last call succeeded. -/
def SelectsExactly {N : Nat} (w : Service N × SockTrace N) (op : SockOp N) : Prop :=
  op.Selects → (SelectsValid w.1 op ↔ LastConnected w.2)

theorem SocketsSettled.selects {N : Nat} {w : Service N × SockTrace N} {op : SockOp N} (h : SocketsSettled w)
    (given : ∀ fd, op = .fdSet fd ∨ op = .fdIsset fd → fd = w.1.proxy.upstreamSock ∨ ∃ sock, fd = w.1.listenSock sock) :
    SelectsExactly w op := by
  intro _
  rw [← h.upstream]
  constructor
  · exact fun valid => ⟨valid.upstream, valid.opened⟩
  · rintro ⟨upstream, opened⟩
    refine ⟨fun fd uses => ?_, h.listening, upstream, opened⟩
    rcases given fd uses with rfl | ⟨sock, rfl⟩
    · exact upstream
    · exact h.listening sock

section

variable {cfg : Kconfig} {bs : Bsearch}

/-- An operation that is no step of a reconnection keeps the sockets. -/
theorem step_sockets {w w' : Service cfg.maxPending} {op : SockOp cfg.maxPending} {r : op.Res} (other : ¬ op.Reconnects)
    (stepped : Service.step cfg bs w op r w') :
    w'.proxy.upstreamSock = w.proxy.upstreamSock ∧ w'.listenSock = w.listenSock ∧ w'.opened = w.opened := by
  cases op with
  | socket | close | connect | setUpstreamSock | setListenSock => exact absurd trivial other
  | bind | setsockopt | xTaskCreate | fdSet | select | ready | fdIsset | getTime =>
    obtain rfl := stepped
    exact ⟨rfl, rfl, rfl⟩
  | getUpstreamSock | getListenSock =>
    obtain ⟨-, rfl⟩ := stepped
    exact ⟨rfl, rfl, rfl⟩
  | switchUpstream | firstUpstream =>
    obtain rfl := stepped
    exact ⟨rfl, rfl, rfl⟩
  | handleClientDatagram sock =>
    obtain ⟨env, addr, data, stale, p, acts, handled, rfl⟩ := stepped
    exact ⟨handleClientDatagram_upstreamSock handled, rfl, rfl⟩
  | handleUpstreamDatagram =>
    obtain ⟨data, stale, rfl⟩ := stepped
    exact ⟨handleUpstreamDatagram_upstreamSock w.proxy data stale, rfl, rfl⟩
  | timeOut slot now =>
    simp only [Service.step] at stepped
    split at stepped
    · obtain ⟨env, p, -, timed, -, rfl⟩ := stepped
      exact ⟨timeOutSlot_upstreamSock timed, rfl, rfl⟩
    · obtain ⟨-, rfl⟩ := stepped
      exact ⟨rfl, rfl, rfl⟩

theorem SocketsSettled.step {w v : Service cfg.maxPending × SockTrace cfg.maxPending} {op : SockOp cfg.maxPending}
    {r : op.Res} (h : SocketsSettled w) (other : ¬ op.Reconnects)
    (stepped : (Service.sem cfg bs).traced.step w op r v) : SocketsSettled v := by
  obtain ⟨taken, recorded⟩ := stepped
  obtain ⟨upstream, listening, opened⟩ := step_sockets other taken
  constructor
  · rw [listening]
    exact h.listening
  · rw [UpstreamOpen, upstream, opened, recorded, lastConnected_append]
    cases op <;> first | exact absurd trivial other | exact h.upstream

/-- Every descriptor that the program waits on is as the last call left it, and it ends in `Q`. -/
abbrev SafeService {cfg : Kconfig} (bs : Bsearch) {β : Type} (p : ServiceM cfg.maxPending β)
    (Q : β → Service cfg.maxPending × SockTrace cfg.maxPending → Prop) (w : Service cfg.maxPending × SockTrace cfg.maxPending) :
    Prop :=
  (Service.sem cfg bs).traced.Safe (fun _ => True) SelectsExactly p Q w

section

variable {w : Service cfg.maxPending × SockTrace cfg.maxPending} {β : Type}
  {Q : β → Service cfg.maxPending × SockTrace cfg.maxPending → Prop}

/-- An operation that neither waits nor reconnects, then the rest. -/
theorem safe_other {op : SockOp cfg.maxPending} {k : op.Res → ServiceM cfg.maxPending β} (h : SocketsSettled w)
    (waits : ¬ op.Selects) (other : ¬ op.Reconnects)
    (next : ∀ r v, SocketsSettled v → SafeService bs (k r) Q v) :
    SafeService bs (.call op k) Q w :=
  Sem.safe_call trivial (fun there => absurd there waits) (fun _ _ => trivial)
    fun r v stepped => next r v (h.step other stepped)

/-- A descriptor of the service is given to an operation, then the rest. -/
theorem safe_use {fd : Int} {op : SockOp cfg.maxPending} {k : op.Res → ServiceM cfg.maxPending β} (h : SocketsSettled w)
    (uses : op = .fdSet fd ∨ op = .fdIsset fd) (own : fd = w.1.proxy.upstreamSock ∨ ∃ sock, fd = w.1.listenSock sock)
    (next : ∀ r v, SocketsSettled v → SafeService bs (k r) Q v) :
    SafeService bs (.call op k) Q w := by
  have exactly : SelectsExactly w op := by
    apply h.selects
    intro fd' given
    rcases uses with rfl | rfl <;> rcases given with here | here <;> cases here <;> exact own
  refine Sem.safe_call trivial exactly (fun _ _ => trivial) fun r v stepped => next r v (h.step ?_ stepped)
  rcases uses with rfl | rfl <;> exact id

theorem safe_use_listen {use : Int → SockOp cfg.maxPending} {sock : ListenSock}
    {k : (fd : Int) → (use fd).Res → ServiceM cfg.maxPending β} (h : SocketsSettled w)
    (uses : ∀ fd, use fd = .fdSet fd ∨ use fd = .fdIsset fd)
    (next : ∀ fd r v, SocketsSettled v → SafeService bs (k fd r) Q v) :
    SafeService bs
      (.call (.getListenSock sock) fun fd => .call (use fd) (k fd)) Q w := by
  refine Sem.safe_call trivial (fun there => there.elim) (fun _ _ => trivial) fun fd v stepped => ?_
  have settled := h.step id stepped
  obtain ⟨⟨rfl, same⟩, -⟩ := stepped
  apply safe_use settled (uses _)
  · exact .inr ⟨sock, by rw [same]⟩
  · exact next _

theorem safe_use_upstream {use : Int → SockOp cfg.maxPending} {k : (fd : Int) → (use fd).Res → ServiceM cfg.maxPending β}
    (h : SocketsSettled w) (uses : ∀ fd, use fd = .fdSet fd ∨ use fd = .fdIsset fd)
    (next : ∀ fd r v, SocketsSettled v → SafeService bs (k fd r) Q v) :
    SafeService bs
      (.call .getUpstreamSock fun fd => .call (use fd) (k fd)) Q w := by
  refine Sem.safe_call trivial (fun there => there.elim) (fun _ _ => trivial) fun fd v stepped => ?_
  have settled := h.step id stepped
  obtain ⟨⟨rfl, same⟩, -⟩ := stepped
  apply safe_use settled (uses _)
  · exact .inl (by rw [same])
  · exact next _

end

/-! ## The programs, one at a time -/

/-- An operation that does not wait, then the rest. -/
theorem safe_step {β : Type} {Q : β → Service cfg.maxPending × SockTrace cfg.maxPending → Prop} {w : Service cfg.maxPending}
    {past : SockTrace cfg.maxPending} {op : SockOp cfg.maxPending} {k : op.Res → ServiceM cfg.maxPending β}
    (waits : ¬ op.Selects) (next : ∀ r v, Service.step cfg bs w op r v →
      SafeService bs (k r) Q (v, past ++ [⟨op, r⟩])) :
    SafeService bs (.call op k) Q (w, past) := by
  refine Sem.safe_call trivial (fun there => absurd there waits) (fun _ _ => trivial) fun r v stepped => ?_
  obtain ⟨v, _⟩ := v
  obtain ⟨taken, rfl⟩ := stepped
  exact next r v taken

theorem openUpstreamSocket_safe {w : Service cfg.maxPending} (listening : ∀ sock, 0 ≤ w.listenSock sock)
    (past : SockTrace cfg.maxPending) :
    SafeService bs Service.openUpstreamSocket
      (fun err v => SocketsSettled v ∧ (err = .ok → LastConnected v.2)) (w, past) := by
  have closed {w' : Service cfg.maxPending} {past' : SockTrace cfg.maxPending} (kept : w'.listenSock = w.listenSock)
      (shut : w'.proxy.upstreamSock < 0) (failed : ¬ LastConnected past') : SocketsSettled (w', past') := by
    constructor
    · rw [kept]
      exact listening
    · apply iff_of_false _ failed
      exact fun opened => absurd opened.1 (Int.not_le.mpr shut)
  simp only [Service.openUpstreamSocket, Prog.bind_eq, Prog.pure_eq, Service.perform, Prog.perform_bind]
  refine safe_step id fun fd w₁ created => safe_step id fun _ w₂ assigned => safe_step id fun fd₁ w₃ read => ?_
  obtain rfl := assigned
  obtain ⟨rfl, rfl⟩ := read
  have same : w₁.listenSock = w.listenSock := by
    rcases created with ⟨-, rfl⟩ | ⟨-, -, rfl⟩ <;> rfl
  split
  · rename_i valid
    refine safe_step id fun fd₂ w₄ read => safe_step id fun succeeded w₅ connected => ?_
    obtain ⟨rfl, rfl⟩ := read
    obtain rfl := connected
    cases succeeded with
    | true =>
      obtain ⟨shut, -⟩ | ⟨-, -, rfl⟩ := created
      · exact absurd shut (Int.not_lt.mpr valid)
      refine ⟨trivial, ⟨listening, ?_⟩, fun _ => lastConnected_connect _ _⟩
      apply iff_of_true _ (lastConnected_connect _ _)
      exact ⟨valid, List.mem_cons_self ..⟩
    | false =>
      refine safe_step id fun fd₃ w₆ read => safe_step id fun _ w₇ freed => safe_step id fun _ w₈ assigned => ?_
      obtain ⟨rfl, rfl⟩ := read
      obtain rfl := freed
      obtain rfl := assigned
      refine ⟨trivial, closed same (show (-1 : Int) < 0 by decide) ?_, fun impossible => by cases impossible⟩
      simp [LastConnected, List.foldl_append, connected]
  · rename_i shut
    refine ⟨trivial, closed same (Int.not_le.mp shut) ?_, fun impossible => by cases impossible⟩
    simp [LastConnected, List.foldl_append, connected]

/-- `connect_upstream_socket` leaves an open socket exactly when its last call succeeds. -/
theorem connectUpstreamSocket_safe {w : Service cfg.maxPending} (listening : ∀ sock, 0 ≤ w.listenSock sock)
    (past : SockTrace cfg.maxPending) :
    SafeService bs Service.connectUpstreamSocket
      (fun err v => SocketsSettled v ∧ (err = .ok → LastConnected v.2)) (w, past) := by
  simp only [Service.connectUpstreamSocket, Prog.bind_eq, Service.perform, Prog.perform_bind]
  refine safe_step id fun fd w₁ read => ?_
  obtain ⟨rfl, rfl⟩ := read
  split
  · refine safe_step id fun fd₁ w₂ read => safe_step id fun _ w₃ freed => ?_
    obtain ⟨rfl, rfl⟩ := read
    obtain rfl := freed
    apply openUpstreamSocket_safe
    exact listening
  · exact openUpstreamSocket_safe listening _

theorem failOverUpstream_safe {w : Service cfg.maxPending × SockTrace cfg.maxPending} (h : SocketsSettled w) :
    SafeService bs Service.failOverUpstream (fun _ v => SocketsSettled v) w := by
  simp only [Service.failOverUpstream, Prog.bind_eq, Prog.pure_eq, Service.perform, Prog.perform_bind]
  refine safe_other h id id fun _ v settled => Sem.safe_bind ?_
  exact (connectUpstreamSocket_safe settled.listening v.2).mono fun _ _ _ done => ⟨trivial, done.1⟩

theorem dnsProxyApplyUpstreamConfig_safe {w : Service cfg.maxPending × SockTrace cfg.maxPending} (h : SocketsSettled w) :
    SafeService bs Service.dnsProxyApplyUpstreamConfig
      (fun _ v => SocketsSettled v) w := by
  simp only [Service.dnsProxyApplyUpstreamConfig, Prog.bind_eq, Prog.pure_eq, Service.perform, Prog.perform_bind]
  refine safe_other h id id fun _ v settled => Sem.safe_bind ?_
  exact (connectUpstreamSocket_safe settled.listening v.2).mono fun _ _ _ done => ⟨trivial, done.1⟩

theorem sweepSlots_safe {w : Service cfg.maxPending × SockTrace cfg.maxPending} (h : SocketsSettled w) (now : Int)
    (slots : List (Fin cfg.maxPending)) :
    SafeService bs (Service.sweepSlots now slots)
      (fun _ v => SocketsSettled v) w := by
  induction slots generalizing w with
  | nil => exact ⟨trivial, h⟩
  | cons slot slots ih =>
    simp only [Service.sweepSlots, Prog.bind_eq, Service.perform, Prog.perform_bind]
    refine safe_other h id id fun reached v settled => ?_
    split
    · exact Sem.safe_bind ((failOverUpstream_safe settled).mono fun _ v _ settled => ih settled)
    · exact ih settled

theorem waitForDatagrams_safe {w : Service cfg.maxPending × SockTrace cfg.maxPending} (h : SocketsSettled w) :
    SafeService bs Service.waitForDatagrams (fun _ v => SocketsSettled v) w := by
  simp only [Service.waitForDatagrams, Prog.bind_eq, Service.perform, Prog.perform_bind]
  refine safe_use_listen h (fun _ => .inl rfl) fun _ _ v₁ h₁ => ?_
  refine safe_use_listen h₁ (fun _ => .inl rfl) fun _ _ v₂ h₂ => ?_
  refine safe_use_upstream h₂ (fun _ => .inl rfl) fun _ _ v₃ h₃ => ?_
  refine safe_other h₃ id id fun _ v₄ h₄ => safe_other h₄ id id fun _ v₅ h₅ => safe_other h₅ id id fun _ v₆ h₆ => ?_
  refine Sem.safe_call trivial (h₆.selects ?_) (fun _ _ => trivial) fun _ v₇ stepped => ⟨trivial, h₆.step id stepped⟩
  rintro fd (given | given) <;> cases given

theorem serveListenSock_safe {w : Service cfg.maxPending × SockTrace cfg.maxPending} (h : SocketsSettled w)
    (sock : ListenSock) :
    SafeService bs (Service.serveListenSock sock)
      (fun _ v => SocketsSettled v) w := by
  simp only [Service.serveListenSock, Prog.bind_eq, Service.perform, Prog.perform_bind]
  refine safe_use_listen h (fun _ => .inr rfl) fun _ received v settled => ?_
  split
  · exact safe_other settled id id fun _ _ settled => ⟨trivial, settled⟩
  · exact ⟨trivial, settled⟩

theorem serveUpstreamSock_safe {w : Service cfg.maxPending × SockTrace cfg.maxPending} (h : SocketsSettled w) :
    SafeService bs Service.serveUpstreamSock
      (fun _ v => SocketsSettled v) w := by
  simp only [Service.serveUpstreamSock, Prog.bind_eq, Service.perform, Prog.perform_bind]
  refine safe_use_upstream h (fun _ => .inr rfl) fun _ received v settled => ?_
  split
  · exact safe_other settled id id fun _ _ settled => ⟨trivial, settled⟩
  · exact ⟨trivial, settled⟩

theorem serveDatagrams_safe {w : Service cfg.maxPending × SockTrace cfg.maxPending} (h : SocketsSettled w) :
    SafeService bs Service.serveDatagrams (fun _ v => SocketsSettled v) w := by
  have sweeps {v : Service cfg.maxPending × SockTrace cfg.maxPending} (settled : SocketsSettled v) :
      SafeService bs Service.sweepTimeouts (fun _ v => SocketsSettled v) v := by
    simp only [Service.sweepTimeouts, Prog.bind_eq, Service.perform, Prog.perform_bind]
    exact safe_other settled id id fun now _ settled => sweepSlots_safe settled now _
  simp only [Service.serveDatagrams, Service.serveReady, Prog.bind_eq, Service.perform, Prog.perform_bind]
  refine safe_other h id id fun received v settled => ?_
  split
  · apply Sem.safe_bind
    refine Sem.safe_bind ((serveListenSock_safe settled .v4).mono fun _ v₁ _ h₁ => ?_)
    refine Sem.safe_bind ((serveListenSock_safe h₁ .v6).mono fun _ v₂ _ h₂ => ?_)
    exact (serveUpstreamSock_safe h₂).mono fun _ v₃ _ h₃ => sweeps h₃
  · exact sweeps settled

/-- Between two waits the descriptors used are as the last call left them. -/
theorem launch_safe (owner : Service.Owner) {w : Service cfg.maxPending × SockTrace cfg.maxPending} (h : SocketsSettled w) :
    SafeService bs (Service.launch owner) (fun _ v => SocketsSettled v) w := by
  cases owner with
  | dnsProxy =>
    apply Sem.safe_bind
    exact (serveDatagrams_safe h).mono fun _ _ _ settled => waitForDatagrams_safe settled
  | httpd => exact dnsProxyApplyUpstreamConfig_safe h

/-- A start that succeeds has connected its upstream socket. -/
theorem dnsProxyStart_safe (w : Service cfg.maxPending) (past : SockTrace cfg.maxPending) :
    SafeService bs Service.dnsProxyStart
      (fun err v => err = .ok → SocketsSettled v ∧ LastConnected v.2) (w, past) := by
  have failing {P : Prop} (impossible : EspErr.fail = .ok) : P := by cases impossible
  simp only [Service.dnsProxyStart, Prog.bind_eq, Prog.pure_eq, Service.perform, Prog.perform_bind]
  refine safe_step id fun fd4 w₁ _ => safe_step id fun _ w₂ assigned => safe_step id fun v4 w₃ read => ?_
  obtain rfl := assigned
  obtain ⟨rfl, rfl⟩ := read
  split
  · rename_i valid4
    refine safe_step id fun bound w₄ same => ?_
    obtain rfl := same
    split
    · refine safe_step id fun fd6 w₅ created => safe_step id fun _ w₆ assigned => safe_step id fun v6 w₇ read => ?_
      obtain rfl := assigned
      obtain ⟨rfl, rfl⟩ := read
      split
      · rename_i valid6
        have listening (sock : ListenSock) : 0 ≤ Function.update w₅.listenSock .v6 v6 sock := by
          cases sock with
          | v6 => exact valid6
          | v4 =>
            have first : w₅.listenSock .v4 = v4 := by
              rcases created with ⟨-, rfl⟩ | ⟨-, -, rfl⟩ <;> rfl
            rw [Function.update_of_ne (by decide), first]
            exact valid4
        refine safe_step id fun v6only w₈ same => ?_
        obtain rfl := same
        split
        · refine safe_step id fun bound w₉ same => ?_
          obtain rfl := same
          split
          · refine Sem.safe_bind ((connectUpstreamSocket_safe listening _).mono fun err v _ done => ?_)
            obtain ⟨settled, last⟩ := done
            split
            · rename_i failed
              exact ⟨trivial, fun ok => absurd ok failed⟩
            · rename_i ok
              obtain ⟨v, past'⟩ := v
              have same (created : Bool) : LastConnected (past' ++ [⟨.xTaskCreate, created⟩]) := by
                rw [lastConnected_append]
                exact last (not_not.mp ok)
              refine safe_step id fun created v' stepped => ?_
              have taken : (Service.sem cfg bs).traced.step (v, past') .xTaskCreate created
                  (v', past' ++ [⟨.xTaskCreate, created⟩]) := ⟨stepped, rfl⟩
              have kept := settled.step id taken
              split
              · exact ⟨trivial, fun _ => ⟨kept, same created⟩⟩
              · exact ⟨trivial, fun impossible => by cases impossible⟩
          · exact ⟨trivial, failing⟩
        · exact ⟨trivial, failing⟩
      · exact ⟨trivial, failing⟩
    · exact ⟨trivial, failing⟩
  · exact ⟨trivial, failing⟩

end

/-! ## Every run -/

section

variable {cfg : Kconfig} {bs : Bsearch} {x y : ServiceTasks cfg}

theorem serial_start (started : Started cfg bs x) :
    x.Serial (Service.sem cfg bs).traced SelectsExactly SocketsSettled := by
  obtain ⟨settled, -⟩ := (dnsProxyStart_safe (Service.boot cfg) []).ends .ok x.world started.start rfl
  rw [started.tasks]
  apply Tasks.Serial.advance (x := ⟨x.world, fun _ => none⟩)
  · exact fun _ busy => absurd rfl busy
  · exact waitForDatagrams_safe settled

/-- **In every run that keeps reconfigurations to the waits, the descriptors that the
loop uses are valid exactly when the last call of `socket()` or `connect()` so far was a
`connect()` that succeeded.** -/
theorem selects_valid_iff (started : Started cfg bs x) (run : WaitingRun cfg bs x y) {t : Nat} {owner : Service.Owner}
    {op : SockOp cfg.maxPending} {k : op.Res → ServiceM cfg.maxPending Unit}
    (next : y.running t = some (owner, .call op k)) (waits : op.Selects) :
    SelectsValid y.world.1 op ↔ LastConnected y.world.2 := by
  have serial : y.Serial (Service.sem cfg bs).traced SelectsExactly SocketsSettled := by
    apply Tasks.Run.serial run (fun _ _ => id) (fun _ _ quiet => quiet) _ (serial_start started)
    exact fun owner w settled => launch_safe owner settled
  exact serial.performs next waits

end

/-! ## Runs that an environment answers -/

/-- Every operation is answered: nothing arrives, no time passes, `socket()` fails or takes the next number. -/
def Service.answer {N : Nat} (fails : Bool) (w : Service N) : (op : SockOp N) → Option (op.Res × Service N)
  | .socket =>
    let fd : Int := 3 + w.opened.length
    if fails = true then some (-1, w) else if fd ∈ w.opened then none else some (fd, { w with opened := fd :: w.opened })
  | .close fd => some ((), { w with opened := w.opened.filter (· ≠ fd) })
  | .getUpstreamSock => some (w.proxy.upstreamSock, w)
  | .setUpstreamSock fd => some ((), { w with proxy.upstreamSock := fd })
  | .getListenSock sock => some (w.listenSock sock, w)
  | .setListenSock sock fd => some ((), { w with listenSock := Function.update w.listenSock sock fd })
  | .firstUpstream => some ((), { w with proxy.upstreamIndex := 0, proxy.consecutiveTimeouts := 0 })
  | .timeOut slot now => if now = 0 ∧ (w.proxy.pending slot).inUse = false then some (false, w) else none
  | .bind _ | .setsockopt _ | .connect _ | .xTaskCreate => some (true, w)
  | .fdSet _ | .select _ => some ((), w)
  | .ready | .getTime => some (0, w)
  | .fdIsset _ => some (false, w)
  | .handleClientDatagram _ | .handleUpstreamDatagram | .switchUpstream => none

theorem Service.answer_step {cfg : Kconfig} {bs : Bsearch} {fails : Bool} {w v : Service cfg.maxPending}
    {op : SockOp cfg.maxPending} {r : op.Res} (answered : Service.answer fails w op = some (r, v)) :
    (Service.sem cfg bs).step w op r v := by
  cases op with
  | socket =>
    simp only [Service.answer] at answered
    split at answered
    · cases answered
      exact .inl ⟨show (-1 : Int) < 0 by decide, rfl⟩
    split at answered
    · cases answered
    · rename_i fresh
      cases answered
      exact .inr ⟨show (0 : Int) ≤ 3 + (w.opened.length : Int) by omega, fresh, rfl⟩
  | timeOut slot now =>
    simp only [Service.answer] at answered
    split at answered
    · rename_i idle
      cases answered
      have waiting : ¬ Expired cfg now (w.proxy.pending slot) := by
        intro expired
        exact Bool.false_ne_true (idle.2.symm.trans expired.1)
      exact (if_neg waiting).mpr ⟨rfl, rfl⟩
    · cases answered
  | handleClientDatagram | handleUpstreamDatagram | switchUpstream => cases answered
  | getUpstreamSock | getListenSock =>
    cases answered
    exact ⟨rfl, rfl⟩
  | _ =>
    cases answered
    rfl

/-- The first operation of a program adds a descriptor to the set. -/
def Service.nextFdSet {N : Nat} : ServiceM N Unit → Option Int
  | .call (.fdSet fd) _ => some fd
  | _ => none

theorem exists_of_nextFdSet {N : Nat} {p : ServiceM N Unit} {fd : Int} (next : Service.nextFdSet p = some fd) :
    ∃ k, p = .call (.fdSet fd) k := by
  cases p with
  | ret a => cases next
  | call op k =>
    cases op <;> cases next
    exact ⟨k, rfl⟩

/-- The service after a start in which every call succeeds, once its task waits. -/
def waitingService : Option (Service oneSlot.maxPending × SockTrace oneSlot.maxPending) :=
  (Service.dnsProxyStart.exec (Sem.recorded (Service.answer false)) (Service.boot oneSlot, [])).bind fun started =>
    if started.1 = .ok then
      (Service.waitForDatagrams.exec (Sem.recorded (Service.answer false)) started.2).map Prod.snd
    else none

theorem recorded_answer_step {cfg : Kconfig} {bs : Bsearch} (fails : Bool)
    (w : Service cfg.maxPending × SockTrace cfg.maxPending) (op : SockOp cfg.maxPending) (r : op.Res)
    (v : Service cfg.maxPending × SockTrace cfg.maxPending)
    (answered : Sem.recorded (Service.answer fails) w op = some (r, v)) : (Service.sem cfg bs).traced.step w op r v :=
  Sem.recorded_step (fun _ _ _ _ => Service.answer_step) answered

theorem waitingService_run {w : Service oneSlot.maxPending × SockTrace oneSlot.maxPending} (reached : waitingService = some w) :
    ∃ x, Started oneSlot .binary x ∧ WaitingRun oneSlot .binary x ⟨w, fun _ => none⟩ := by
  obtain ⟨⟨err, v⟩, start, waits⟩ := Option.bind_eq_some_iff.mp reached
  split at waits
  · rename_i ok
    obtain rfl : err = .ok := ok
    obtain ⟨⟨_, u⟩, passes, rfl⟩ := Option.map_eq_some_iff.mp waits
    refine ⟨Service.tasks v, ⟨Sem.runs_exec (recorded_answer_step false) start, rfl⟩, ?_⟩
    have here : (Service.tasks v).running 0 = some (.dnsProxy, Service.waitForDatagrams) := rfl
    have waited : WaitingRun oneSlot .binary (Service.tasks v) ⟨u, Function.update (Service.tasks v).running 0 none⟩ :=
      .completes here (Sem.runs_exec (recorded_answer_step false) passes)
    have still : Function.update (Service.tasks v).running 0 none = fun _ => none := by
      rw [Service.tasks, Function.update_idem]
      exact Function.update_eq_self_iff.mpr rfl
    rwa [still] at waited
  · cases waits

/-- Then the settings change, and the task serves and comes to its third `FD_SET`. -/
def reconfiguredService (fails : Bool) :
    Option (ServiceM oneSlot.maxPending Unit × (Service oneSlot.maxPending × SockTrace oneSlot.maxPending)) :=
  waitingService.bind fun w => ((Service.launch .httpd).exec (Sem.recorded (Service.answer fails)) w).bind fun applied =>
    (Service.launch .dnsProxy).after (Sem.recorded (Service.answer false)) 8 applied.2

theorem reconfiguredService_run {fails : Bool} {q : ServiceM oneSlot.maxPending Unit}
    {v : Service oneSlot.maxPending × SockTrace oneSlot.maxPending} (reached : reconfiguredService fails = some (q, v)) :
    ∃ x, Started oneSlot .binary x ∧
      WaitingRun oneSlot .binary x ⟨v, Function.update (fun _ => none) 0 (some (.dnsProxy, q))⟩ := by
  obtain ⟨w, waiting, later⟩ := Option.bind_eq_some_iff.mp reached
  obtain ⟨⟨_, u⟩, applied, serves⟩ := Option.bind_eq_some_iff.mp later
  obtain ⟨x, started, run⟩ := waitingService_run waiting
  refine ⟨x, started, run.trans ?_⟩
  have reconfigured : WaitingRun oneSlot .binary ⟨w, fun _ => none⟩ ⟨u, fun _ => none⟩ :=
    Tasks.Run.alone (t := 0) (i := .httpd) rfl (fun _ => rfl) (Sem.runs_exec (recorded_answer_step fails) applied)
  exact reconfigured.trans (Tasks.Run.started (recorded_answer_step false) rfl (fun _ => rfl) serves)

/-- After a reconfiguration that succeeds, the loop goes on with a valid socket. -/
theorem reconfigured_selects_valid : ∃ x y t fd, ∃ k : Unit → ServiceM oneSlot.maxPending Unit,
    Started oneSlot .binary x ∧ WaitingRun oneSlot .binary x y ∧ y.running t = some (.dnsProxy, .call (.fdSet fd) k) ∧
    LastConnected y.world.2 ∧ SelectsValid y.world.1 (.fdSet fd) := by
  have computed : (reconfiguredService false).map
      (fun r => (Service.nextFdSet r.1, r.2.2.foldl connected false)) = some (some 5, true) := by
    decide +kernel
  obtain ⟨⟨q, v⟩, reached, seen⟩ := Option.map_eq_some_iff.mp computed
  obtain ⟨next, last⟩ := Prod.mk.inj seen
  obtain ⟨k, rfl⟩ := exists_of_nextFdSet next
  obtain ⟨x, started, run⟩ := reconfiguredService_run reached
  have valid : SelectsValid v.1 (.fdSet 5) := (selects_valid_iff (t := 0) (k := k) started run rfl trivial).mpr last
  exact ⟨x, _, 0, 5, k, started, run, rfl, last, valid⟩

/-- In every run the loop selects on valid descriptors only. -/
def SelectsAlwaysValid (cfg : Kconfig) (bs : Bsearch) : Prop :=
  ∀ x y, Started cfg bs x → ServiceRun cfg bs x y → ∀ t owner op k,
    y.running t = some (owner, .call op k) → op.Selects → SelectsValid y.world.1 op

/-- The settings change, `socket()` fails, and the loop adds descriptor -1 to its set. -/
theorem failed_reconfiguration_selected : ¬ SelectsAlwaysValid oneSlot .binary := by
  have computed : (reconfiguredService true).map (fun r => Service.nextFdSet r.1) = some (some (-1)) := by
    decide +kernel
  obtain ⟨⟨q, v⟩, reached, next⟩ := Option.map_eq_some_iff.mp computed
  obtain ⟨k, rfl⟩ := exists_of_nextFdSet next
  obtain ⟨x, started, run⟩ := reconfiguredService_run reached
  intro valid
  have each : ServiceRun oneSlot .binary x _ := run.mono fun x owner quiet t p there => by
    rw [quiet t] at there
    cases there
  have given := (valid x _ started each 0 .dnsProxy (.fdSet (-1)) k rfl trivial).given (-1) (.inl rfl)
  exact absurd given (by decide)

/-- The HTTP task is inside `connect_upstream_socket` when the proxy task serves. -/
def overlappedService :
    Option ((ServiceM oneSlot.maxPending Unit × ServiceM oneSlot.maxPending Unit) ×
      (Service oneSlot.maxPending × SockTrace oneSlot.maxPending)) :=
  waitingService.bind fun w =>
    ((Service.launch .httpd).after (Sem.recorded (Service.answer false)) 4 w).bind fun half =>
      ((Service.launch .dnsProxy).after (Sem.recorded (Service.answer false)) 8 half.2).map
        fun served => ((half.1, served.1), served.2)

/-- No call fails, but the reconfiguration has closed the socket and not opened the
next one when the loop adds it to its set. -/
theorem overlapping_reconfiguration_closed : ∃ x y t fd, ∃ k : Unit → ServiceM oneSlot.maxPending Unit,
    Started oneSlot .binary x ∧ ServiceRun oneSlot .binary x y ∧ y.running t = some (.dnsProxy, .call (.fdSet fd) k) ∧
    LastConnected y.world.2 ∧ fd ∉ y.world.1.opened := by
  have computed : overlappedService.map (fun r => (Service.nextFdSet r.1.2, r.2.2.foldl connected false, r.2.1.opened)) =
      some (some 5, true, [4, 3]) := by
    decide +kernel
  obtain ⟨⟨⟨_, q⟩, _⟩, reached, seen⟩ := Option.map_eq_some_iff.mp computed
  obtain ⟨next, seen⟩ := Prod.mk.inj seen
  obtain ⟨last, opened⟩ := Prod.mk.inj seen
  obtain ⟨k, rfl⟩ := exists_of_nextFdSet next
  obtain ⟨w, waiting, later⟩ := Option.bind_eq_some_iff.mp reached
  obtain ⟨⟨half, u⟩, begun, later⟩ := Option.bind_eq_some_iff.mp later
  obtain ⟨⟨_, v⟩, serves, same⟩ := Option.map_eq_some_iff.mp later
  cases same
  obtain ⟨x, started, run⟩ := waitingService_run waiting
  have each : ServiceRun oneSlot .binary x ⟨w, fun _ => none⟩ := run.mono fun x owner quiet t p there => by
    rw [quiet t] at there
    cases there
  have reconfigures : ServiceRun oneSlot .binary ⟨w, fun _ => none⟩
      ⟨u, Function.update (fun _ => none) 1 (some (.httpd, half))⟩ :=
    .started (recorded_answer_step false) rfl (fun _ _ => nofun) begun
  have idle : Tasks.AtRest (⟨u, Function.update (fun _ => none) 1 (some (.httpd, half))⟩ : ServiceTasks oneSlot) .dnsProxy := by
    intro t p there
    by_cases first : t = 1
    · subst first
      cases there
    · dsimp only at there
      rw [Function.update_of_ne first] at there
      cases there
  have serving : ServiceRun oneSlot .binary ⟨u, Function.update (fun _ => none) 1 (some (.httpd, half))⟩
      ⟨v, Function.update (Function.update (fun _ => none) 1 (some (.httpd, half))) 0 (some (.dnsProxy, .call (.fdSet 5) k))⟩ :=
    .started (recorded_answer_step false) rfl idle serves
  refine ⟨x, _, 0, 5, k, started, (each.trans reconfigures).trans serving, rfl, last, ?_⟩
  rw [opened]
  decide

end EspAdblocker.Dns
