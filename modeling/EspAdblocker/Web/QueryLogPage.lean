import EspAdblocker.Dns.Logging
import EspAdblocker.Lib.Markup

/-!
# The query log in the browser

`querylog_get_handler` sends the log as JSON, and `loadQueryLog` of the status page
writes each entry into a row of HTML. The name goes from the datagram into the row
as it is, also when the query has timed out and is logged again: the parser accepts
every octet and nothing on the way escapes one. So the row shows the name as text
exactly when the name holds no markup.
-/

namespace EspAdblocker.Web

open EspAdblocker.Lib EspAdblocker.Storage EspAdblocker.Dns

/-! ## The handler -/

/-- An entry of `/api/querylog`. JSON carries its strings and numbers as they are. -/
structure QueryLogItem where
  qname : List Byte
  qtype : Nat
  result : Nat
  secondsAgo : Int
  clientIp : List Byte
  deriving DecidableEq, Repr

/-- The value of a `dns_proxy_query_result_t`. -/
def resultNumber : QueryResult → Nat
  | .forwarded => 0
  | .blocked => 1
  | .servfail => 2

/-- One turn of the loop of `querylog_get_handler`; `inetNtop` is `inet_ntop`. -/
def queryLogItem (inetNtop : Nat → List Byte → List Byte) (now : Int) (e : QueryLogEntry) : QueryLogItem where
  qname := e.qname
  qtype := e.qtype.toNat
  result := resultNumber e.result
  secondsAgo := (now - e.timeUs).tdiv 1000000
  clientIp := if e.clientAddr.family = afInet6 then inetNtop afInet6 e.clientAddr.addr else inetNtop afInet e.clientAddr.addr

/-- `querylog_get_handler`: the entries it sends, or `none` when there is no memory for them. -/
def querylogGetHandler (cfg : Kconfig) (inetNtop : Nat → List Byte → List Byte) (allocated mutex : Bool) (log : QueryLog)
    (now : Int) : Option (List QueryLogItem) :=
  if allocated then
    some ((dnsProxyGetQueryLog cfg log mutex cfg.queryLogSize).2.map (queryLogItem inetNtop now))
  else none

/-! ## The page -/

/-- A number in a template. -/
def numberText (n : Int) : List Byte := textBytes (toString n)

/-- `fmtAge`. -/
def fmtAge (s : Int) : List Byte :=
  if s < 60 then numberText s ++ textBytes "s"
  else if s < 3600 then numberText (s / 60) ++ textBytes "m"
  else numberText (s / 3600) ++ textBytes "h"

/-- `QTYPE_NAMES`. -/
def qtypeNames : Nat → Option String
  | 1 => some "A"
  | 28 => some "AAAA"
  | 5 => some "CNAME"
  | 15 => some "MX"
  | 16 => some "TXT"
  | 2 => some "NS"
  | 12 => some "PTR"
  | 33 => some "SRV"
  | _ => none

/-- `RESULT_INFO`, and what stands for a result it does not have. -/
def resultInfo : Nat → String × String
  | 0 => ("forwarded", "forwarded")
  | 1 => ("blocked", "blocked")
  | 2 => ("servfail", "SERVFAIL")
  | _ => ("servfail", "?")

/-- The template of `loadQueryLog` up to the name. -/
def rowBefore (e : QueryLogItem) : List Byte :=
  textBytes "<tr><td>" ++ fmtAge e.secondsAgo ++ textBytes "</td><td>" ++ e.clientIp ++ textBytes "</td><td class=\"qname\">"

/-- The template of `loadQueryLog` from the name on. -/
def rowAfter (e : QueryLogItem) : List Byte :=
  let (cls, label) := resultInfo e.result
  textBytes "</td>" ++ textBytes "<td>" ++ (match qtypeNames e.qtype with | some name => textBytes name | none => numberText e.qtype) ++
    textBytes "</td><td><span class=\"pill " ++ textBytes cls ++ textBytes "\">" ++ textBytes label ++
    textBytes "</span></td></tr>"

/-- The row of an entry. -/
def queryLogRow (e : QueryLogItem) : List Byte := rowBefore e ++ e.qname ++ rowAfter e

/-- `loadQueryLog`: what it assigns to `innerHTML`. -/
def loadQueryLog (entries : List QueryLogItem) : List Byte := entries.flatMap queryLogRow

/-! ## From the datagram to the page -/

/-- A client's datagram with an accepted question is logged with the name and the type it asks for. -/
theorem handleClientDatagram_logs {N : Nat} {cfg : Kconfig} {bs : Bsearch} {env : Env} {p p' : Proxy N} {sock : ListenSock}
    {client : SockAddr} {data : List Byte} {stale : Fin dnsWireMaxMsgLen → Byte} {acts : List (Action N)} {q : DnsWireQuestion}
    (handled : handleClientDatagram cfg bs env p sock client data stale = .ok (p', acts))
    (accepted : dnsWireParseQuestion (data.take dnsWireMaxMsgLen) = .ok (some q)) :
    ∃ result, p'.log = logQuery cfg p.log (env.logTime 0) client q.qname q.qtype result := by
  cases handleClientDatagram_turn handled with
  | empty nothing =>
    rw [nothing] at accepted
    cases accepted
  | passed parsed _ passed =>
    obtain rfl := Except.ok.inj (parsed.symm.trans accepted)
    unfold forwardOrRefuse at passed
    split at passed
    · cases passed
      exact ⟨.servfail, rfl⟩
    · cases passed
      exact ⟨.forwarded, rfl⟩
  | blocked parsed _ =>
    obtain rfl := Option.some.inj (Except.ok.inj (parsed.symm.trans accepted))
    exact ⟨.blocked, rfl⟩

/-- The row shows the name as text: in the place of the name stands character data for it. -/
def ShowsName (e : QueryLogItem) (row name : List Byte) : Prop :=
  ∃ cell, row = rowBefore e ++ cell ++ rowAfter e ∧ CharacterData cell name

theorem showsName_iff (e : QueryLogItem) : ShowsName e (queryLogRow e) e.qname ↔ ∀ b ∈ e.qname, ¬ Markup b := by
  rw [← characterData_self_iff]
  constructor
  · rintro ⟨cell, same, shown⟩
    obtain rfl : e.qname = cell := List.append_cancel_left (List.append_cancel_right same)
    exact shown
  · exact fun shown => ⟨e.qname, rfl, shown⟩

/-- The page has a row for the entry of that number, which shows the name as text exactly if there is no markup in it. -/
def RowShows (cfg : Kconfig) (log : QueryLog) (n : Nat) (name : List Byte) : Prop :=
  ∀ (inetNtop : Nat → List Byte → List Byte) (now : Int), ∃ items item,
    querylogGetHandler cfg inetNtop true true log now = some items ∧ items[n]? = some item ∧
      loadQueryLog items = loadQueryLog (items.take n) ++ queryLogRow item ++ loadQueryLog (items.drop (n + 1)) ∧
      (ShowsName item (queryLogRow item) name ↔ ∀ b ∈ name, ¬ Markup b)

/-- The page is made of the rows, one after the other. -/
theorem loadQueryLog_split {items : List QueryLogItem} {item : QueryLogItem} {n : Nat} (here : items[n]? = some item) :
    loadQueryLog items = loadQueryLog (items.take n) ++ queryLogRow item ++ loadQueryLog (items.drop (n + 1)) := by
  obtain ⟨bound, rfl⟩ := List.getElem?_eq_some_iff.mp here
  conv_lhs => rw [← List.take_append_drop n items, List.drop_eq_getElem_cons bound]
  simp only [loadQueryLog, List.flatMap_append, List.flatMap_cons, List.append_assoc]

section

variable {cfg : Kconfig} {bs : Bsearch} {upstreamSock : Int} {past : List (Turn (Env × Input) (Action cfg.maxPending))}
  {p p' : Proxy cfg.maxPending} {env : Env} {sock : ListenSock} {client : SockAddr} {data : List Byte}
  {stale : Fin dnsWireMaxMsgLen → Byte} {acts : List (Action cfg.maxPending)} {labels : List Label}
  {qtype qclass : BitVec 16} {rest : List Byte} {timeUs : Int}

/-- **The page shows a call** as long as fewer than the size of the log were made after it. -/
theorem rowShows_call (pos : 1 ≤ cfg.queryLogSize) (before : List LogCall) (call : LogCall) (after : List LogCall)
    (recent : after.length < cfg.queryLogSize) :
    RowShows cfg ((before ++ call :: after).foldl (LogCall.apply cfg) (emptyLog cfg)) after.length (cstr call.qname) := by
  intro inetNtop now
  obtain ⟨out, copied, shows⟩ := query_log_latest pos (before ++ call :: after) cfg.queryLogSize
  have inside : after.length < min (min (before ++ call :: after).length cfg.queryLogSize) cfg.queryLogSize := by
    rw [List.length_append, List.length_cons]
    omega
  have there : ((before ++ call :: after).reverse.take
      (min (min (before ++ call :: after).length cfg.queryLogSize) cfg.queryLogSize))[after.length]? = some call := by
    rw [List.getElem?_take, if_pos inside, List.reverse_append, List.reverse_cons, List.append_assoc,
      List.getElem?_append_right (by rw [List.length_reverse]), List.length_reverse, Nat.sub_self]
    rfl
  obtain ⟨length, each⟩ := List.forall₂_iff_get.mp shows
  obtain ⟨bound, same⟩ := List.getElem?_eq_some_iff.mp there
  have shown := each after.length (length ▸ bound) bound
  let item := queryLogItem inetNtop now (out.get ⟨after.length, length ▸ bound⟩)
  have here : (out.map (queryLogItem inetNtop now))[after.length]? = some item := by
    rw [List.getElem?_map, List.getElem?_eq_getElem (length ▸ bound)]
    rfl
  have name : item.qname = cstr call.qname := by
    rw [List.get_eq_getElem, List.get_eq_getElem, same] at shown
    exact shown.qname
  refine ⟨out.map (queryLogItem inetNtop now), item, ?_, here, loadQueryLog_split here, ?_⟩
  · rw [querylogGetHandler, if_pos rfl, copied]
  · rw [← name]
    exact showsName_iff item

/-- **The row of a datagram's query shows the name as text exactly when the name, as far
as its first NUL, holds no markup**, as long as the log has the entry: the one made when
the datagram was handled, and any that a run makes for its question. -/
theorem logged_name_shown_iff (pos : 1 ≤ cfg.queryLogSize) (run : AnyRun cfg bs upstreamSock past p)
    (handled : handleClientDatagram cfg bs env p sock client data stale = .ok (p', acts))
    (asks : Asks (data.take dnsWireMaxMsgLen) labels qtype qclass rest) (logged : env.logTime 0 = some timeUs) :
    (∀ after : List LogCall, after.length < cfg.queryLogSize →
      RowShows cfg (after.foldl (LogCall.apply cfg) p'.log) after.length (cstr (dotted labels))) ∧
      ∀ later q before time result after, AnyRun cfg bs upstreamSock later q →
        logCalls later = before ++ LogCall.ofQuestion asks.accepted time client result :: after →
        after.length < cfg.queryLogSize → RowShows cfg q.log after.length (cstr (dotted labels)) := by
  constructor
  · intro after recent
    obtain ⟨result, written⟩ := handleClientDatagram_logs handled asks.accepted
    have log : after.foldl (LogCall.apply cfg) p'.log =
        (logCalls past ++ LogCall.ofQuestion asks.accepted timeUs client result :: after).foldl (LogCall.apply cfg)
          (emptyLog cfg) := by
      rw [List.foldl_append, ← log_run run, List.foldl_cons, written, logged]
      rfl
    rw [log]
    exact rowShows_call pos _ _ after recent
  · intro later q before time result after run' calls recent
    rw [log_run run', calls]
    exact rowShows_call pos before _ after recent

end

/-- A query from a client with one label of three bytes. -/
def threeQuery (a b c : Byte) : List Byte :=
  [0x12#8, 0x34#8, 0x01#8, 0#8, 0#8, 1#8, 0#8, 0#8, 0#8, 0#8, 0#8, 0#8, 3#8, a, b, c, 0#8, 0#8, 1#8, 0#8, 1#8]

/-- The label of such a query. -/
def threeLabel (a b c : Byte) : Label := ⟨[a, b, c], Nat.succ_pos 2, Nat.le_of_ble_eq_true rfl⟩

theorem threeQuery_asks (a b c : Byte) :
    Asks ((threeQuery a b c).take dnsWireMaxMsgLen) [threeLabel a b c] 1#16 1#16 [] where
  header := Nat.le_of_ble_eq_true rfl
  counted := show word16 0#8 1#8 ≠ 0#16 by decide
  question := rfl
  fits := Nat.le_of_ble_eq_true rfl

/-- No address is written out. -/
def noAddress (_ : Nat) (_ : List Byte) : List Byte := []

/-- A query for `www` is shown. -/
theorem plain_name_shown : ∃ items item, querylogGetHandler oneSlot noAddress true true
      (LogCall.apply oneSlot (emptyLog oneSlot) (.ofQuestion (threeQuery_asks 0x77#8 0x77#8 0x77#8).accepted 0
        (clientAt 5000#16) .forwarded)) 0 = some items ∧ items[0]? = some item ∧ ShowsName item (queryLogRow item) [0x77#8, 0x77#8, 0x77#8] := by
  have computed : ((handleClientDatagram oneSlot .binary (quietEnv 0) (dnsProxyStart oneSlot 3) .v4 (clientAt 5000#16)
      (threeQuery 0x77#8 0x77#8 0x77#8) fun _ => 0#8).map fun done => done.1.log) = .ok
        (LogCall.apply oneSlot (emptyLog oneSlot)
          (.ofQuestion (threeQuery_asks 0x77#8 0x77#8 0x77#8).accepted 0 (clientAt 5000#16) .forwarded)) := by
    decide +kernel
  obtain ⟨⟨p', acts⟩, handled, log⟩ := exists_of_map_eq_ok computed
  have shows : RowShows oneSlot p'.log 0 [0x77#8, 0x77#8, 0x77#8] :=
    (logged_name_shown_iff (by decide) .start handled (threeQuery_asks 0x77#8 0x77#8 0x77#8) rfl).1 [] (by decide)
  obtain ⟨items, item, sent, here, -, shown⟩ := shows noAddress 0
  refine ⟨items, item, ?_, here, shown.mpr (by decide)⟩
  rw [← log]
  exact sent

/-- Every logged name reaches the page as text. -/
def NamesShown (cfg : Kconfig) (bs : Bsearch) (upstreamSock : Int) : Prop :=
  ∀ past p, AnyRun cfg bs upstreamSock past p → ∀ env sock client data stale p' acts labels qtype qclass rest timeUs,
    handleClientDatagram cfg bs env p sock client data stale = .ok (p', acts) →
    Asks (data.take dnsWireMaxMsgLen) labels qtype qclass rest → env.logTime 0 = some timeUs →
    ∀ inetNtop now items item, querylogGetHandler cfg inetNtop true true p'.log now = some items → items[0]? = some item →
      ShowsName item (queryLogRow item) (cstr (dotted labels))

/-- A query for `<b>` makes what follows it bold. -/
theorem markup_name_injected : ¬ NamesShown oneSlot .binary 3 := by
  have computed : ((handleClientDatagram oneSlot .binary (quietEnv 0) (dnsProxyStart oneSlot 3) .v4 (clientAt 5000#16)
      (threeQuery 0x3C#8 0x62#8 0x3E#8) fun _ => 0#8).map fun done =>
        querylogGetHandler oneSlot noAddress true true done.1.log 0) = .ok
          (some [⟨[0x3C#8, 0x62#8, 0x3E#8], 1, 0, 0, []⟩]) := by
    decide +kernel
  obtain ⟨⟨p', acts⟩, handled, sent⟩ := exists_of_map_eq_ok computed
  intro shown
  have row := shown [] _ .start _ _ _ _ _ p' acts _ _ _ _ 0 handled (threeQuery_asks 0x3C#8 0x62#8 0x3E#8) rfl noAddress 0 _ _
    sent rfl
  exact absurd ((showsName_iff _).mp row) (by decide)

end EspAdblocker.Web
