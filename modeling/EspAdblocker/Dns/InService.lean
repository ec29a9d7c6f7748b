import EspAdblocker.Dns.BlockReply
import EspAdblocker.Dns.Marking
import EspAdblocker.Dns.Names
import EspAdblocker.Dns.Passing
import EspAdblocker.Dns.Publication

/-!
# A publication in service

While the device serves what the tool built from the sources, no query that the
proxy sends upstream asks for a domain of theirs, in whatever spelling and
whatever else it does in between; the client is told at once. Nothing else is
blocked.
-/

namespace EspAdblocker.Dns

open EspAdblocker.Lib EspAdblocker.Bloom EspAdblocker.Tools EspAdblocker.Storage

/-- The device serves the publication, and blocking is on. -/
structure InService (artifacts : Artifacts) (d : Device) : Prop where
  serves : ServesPublication artifacts d
  enabled : d.nvs.blockingEnabled = true
  ready : d.statics.bloomReady = true

/-- The message asks for a name that is listed and that the device does not allow. -/
def AsksListed (U : PyUnicode) (sources : List PyStr) (allowlistText : Option PyStr) (d : Device) (msg : List Byte) : Prop :=
  ∃ labels qtype qclass rest, Asks msg labels qtype qclass rest ∧
    Listed U sources allowlistText (cstr (dotted labels)) ∧ isAllowlisted d (dotted labels) = .ok false

section

variable {U : PyUnicode} {sha : Sha256} {formulas : Formulas} {now : Nat} {sources : List PyStr}
  {allowlistText : Option PyStr} {artifacts : Artifacts} {d : Device}

/-- What a device in service blocks. -/
theorem InService.blocks_iff (bs : Bsearch) (service : InService artifacts d)
    (built : main U sha formulas now sources allowlistText = some artifacts) {q : DnsWireQuestion} :
    blocks bs d q.qname = .ok true ↔
      Listed U sources allowlistText (cstr q.qname) ∧ isAllowlisted d q.qname = .ok false := by
  have listed : (∃ e ∈ allDomains U sources allowlistText, asciiBytes e = cstr q.qname) ↔
      Listed U sources allowlistText (cstr q.qname) := by
    simp only [mem_allDomains, Listed, and_comm]
  rcases asked : isAllowlisted d q.qname with fault | allowlisted
  · -- a look-up that faults decides nothing
    refine iff_of_false (fun decided => ?_) fun both => by cases both.2
    rw [blocks, if_pos ⟨service.enabled, service.ready⟩] at decided
    rcases tested : d.bloomTest q.qname with _ | (_ | _) <;> simp [tested, asked, bind, Except.bind, pure, Except.pure] at decided
  · rw [service.serves.blocks bs (main_eq_some built) (fun _ => isDomain_of_mem_allDomains) service.enabled service.ready asked]
    simp [listed]

theorem asksListed_iff {msg : List Byte} : AsksListed U sources allowlistText d msg ↔
    ∃ q, dnsWireParseQuestion msg = .ok (some q) ∧
      Listed U sources allowlistText (cstr q.qname) ∧ isAllowlisted d q.qname = .ok false := by
  constructor
  · rintro ⟨labels, qtype, qclass, rest, asks, listed, allowed⟩
    exact ⟨_, asks.accepted, listed, allowed⟩
  · rintro ⟨q, accepted, listed, allowed⟩
    obtain ⟨labels, qtype, qclass, rest, asks, rfl⟩ := dnsWireParseQuestion_iff.mp accepted
    exact ⟨labels, qtype, qclass, rest, asks, listed, allowed⟩

/-- Another transaction id makes it no other query. -/
theorem asksListed_dnsWireSetTxid {msg : List Byte} (txid : BitVec 16) :
    AsksListed U sources allowlistText d (dnsWireSetTxid msg txid) ↔ AsksListed U sources allowlistText d msg := by
  have named (m : List Byte) : AsksListed U sources allowlistText d m ↔ ∃ asked, question m = some asked ∧
      Listed U sources allowlistText (cstr asked.1) ∧ isAllowlisted d asked.1 = .ok false := by
    rw [asksListed_iff, question]
    rcases dnsWireParseQuestion m with _ | (_ | q) <;> simp
  rw [named, named, question_dnsWireSetTxid]

/-- A query for a listed domain, in any spelling and with anything behind its question. -/
theorem asksListed_queryFor {domain spelling : PyStr} {text : PyStr} (source : text ∈ sources)
    (listed : domain ∈ parseHostsFormat U text) (kept : domain ∉ loadAllowlist U allowlistText)
    (spelled : spelling.map Char.toLower = domain) {header : List Byte} (size : header.length = dnsWireHeaderLen)
    (counted : qdCount header ≠ 0#16) (qtype qclass : BitVec 16) (rest : List Byte)
    (allowed : isAllowlisted d (asciiBytes domain) = .ok false) :
    AsksListed U sources allowlistText d ((queryFor header spelling qtype qclass rest).take dnsWireMaxMsgLen) := by
  have valid := isDomain_of_mem_parseHostsFormat listed
  have sizes := hasLabels_of_mem_parseHostsFormat listed
  obtain ⟨labels, wire, name⟩ := labels_of_spelling valid sizes spelled
  have letters : textLength labels ≤ 253 := by
    rw [← length_dotted, name, asciiBytes, List.length_map]
    exact sizes.short
  have room : dnsWireHeaderLen + (wireName labels).length + 4 ≤ 272 := questionEnd_le (by omega)
  have cut : (queryFor header spelling qtype qclass rest).take dnsWireMaxMsgLen = queryFor header spelling qtype qclass
      (rest.take (dnsWireMaxMsgLen - (dnsWireHeaderLen + (wireName labels).length + 4))) := by
    have whole (tail : List Byte) : queryFor header spelling qtype qclass tail =
        (header ++ (questionName spelling ++ [highByte qtype, lowByte qtype, highByte qclass, lowByte qclass])) ++ tail := by
      simp [queryFor]
    rw [whole, whole, List.take_append]
    have front : (header ++ (questionName spelling ++ [highByte qtype, lowByte qtype, highByte qclass, lowByte qclass])).length =
        dnsWireHeaderLen + (wireName labels).length + 4 := by
      simp [size, wire]
      omega
    rw [front, List.take_of_length_le (by rw [front, dnsWireMaxMsgLen]; omega)]
  have counted' (tail : List Byte) : qdCount (queryFor header spelling qtype qclass tail) = qdCount header := by
    rw [dnsWireHeaderLen] at size
    simp only [qdCount, queryFor, List.getD_eq_getElem?_getD]
    rw [List.getElem?_append_left (by omega), List.getElem?_append_left (by omega)]
  rw [cut]
  generalize rest.take _ = tail
  have asks : Asks (queryFor header spelling qtype qclass tail) labels qtype qclass tail := by
    refine ⟨?_, by rwa [counted'], ?_, by omega⟩
    · rw [queryFor, List.length_append, size]
      exact Nat.le_add_right _ _
    · rw [queryFor, ← size, List.drop_left, wire]
  refine ⟨labels, qtype, qclass, tail, asks, ⟨domain, ?_, ⟨text, source, listed⟩, kept⟩, by rwa [name]⟩
  rw [name, cstr_eq_self valid.nulFree]

variable {cfg : Kconfig} {bs : Bsearch} {upstreamSock : Int} {past : List (Turn (Env × Input) (Action cfg.maxPending))}
  {p : Proxy cfg.maxPending}

/-- What the turns of a proxy in service send. -/
structure SpeaksFor (U : PyUnicode) (sources : List PyStr) (allowlistText : Option PyStr)
    (t : Turn (Env × Input) (Action cfg.maxPending)) : Prop where
  /-- No query for a listed domain leaves the device. -/
  kept : ∀ slot bytes, .forward slot bytes ∈ t.2 → ¬ AsksListed U sources allowlistText t.1.1.device bytes
  /-- A query is blocked, and at once, exactly when it asks for a listed domain. -/
  blocked : ∀ sock client data stale, t.1.2 = .client sock client data stale → data ≠ [] →
    ((∃ reply, t.2 = [.blocked sock client reply]) ↔
      AsksListed U sources allowlistText t.1.1.device (data.take dnsWireMaxMsgLen))
  /-- Only a client's query is blocked. -/
  spared : ∀ sock client reply, .blocked sock client reply ∈ t.2 → ∃ data stale, t.1.2 = .client sock client data stale
  /-- A listed domain is blocked in any spelling. -/
  spelled : ∀ sock client header spelling qtype qclass rest stale,
    t.1.2 = .client sock client (queryFor header spelling qtype qclass rest) stale →
    header.length = dnsWireHeaderLen → qdCount header ≠ 0#16 → ∀ text ∈ sources, ∀ domain ∈ parseHostsFormat U text,
    spelling.map Char.toLower = domain → domain ∉ loadAllowlist U allowlistText →
    isAllowlisted t.1.1.device (asciiBytes domain) = .ok false → ∃ reply, t.2 = [.blocked sock client reply]

/-- A query that blocking lets through asks for no listed domain. -/
theorem LetThrough.not_asksListed {msg : List Byte} (through : LetThrough bs d msg) (service : InService artifacts d)
    (built : main U sha formulas now sources allowlistText = some artifacts) : ¬ AsksListed U sources allowlistText d msg := by
  rintro asks
  obtain ⟨q, accepted, denied⟩ := asksListed_iff.mp asks
  exact through q accepted ((service.blocks_iff bs built).mpr denied)

/-- Only a client's turn forwards or blocks. -/
theorem client_of_decides {p p' : Proxy cfg.maxPending} {env : Env} {input : Input} {acts : List (Action cfg.maxPending)}
    (taken : turn cfg bs p (env, input) = .ok (p', acts)) {a : Action cfg.maxPending} (sent : a ∈ acts)
    (decides : (∃ slot bytes, a = .forward slot bytes) ∨ ∃ sock client bytes, a = .blocked sock client bytes) :
    ∃ sock client data stale, input = .client sock client data stale ∧ data ≠ [] := by
  cases input with
  | client sock client data stale =>
    refine ⟨sock, client, data, stale, rfl, ?_⟩
    rintro rfl
    cases taken
    cases sent
  | upstream data stale =>
    obtain ⟨-, rfl⟩ | ⟨slot, -, -, -, -, rfl⟩ := handleUpstreamDatagram_cases (Except.ok.inj taken)
    · cases sent
    · rw [List.mem_singleton.mp sent] at decides
      rcases decides with ⟨_, _, impossible⟩ | ⟨_, _, _, impossible⟩ <;> cases impossible
  | sweep =>
    rcases (sweepSlots_sent (List.nodup_finRange _) taken).2 a sent with rfl | ⟨slot, -, rfl⟩ <;>
      rcases decides with ⟨_, _, impossible⟩ | ⟨_, _, _, impossible⟩ <;> cases impossible
  | applyUpstreamConfig =>
    cases taken
    rw [List.mem_singleton.mp sent] at decides
    rcases decides with ⟨_, _, impossible⟩ | ⟨_, _, _, impossible⟩ <;> cases impossible

/-- One turn of a proxy in service. -/
theorem speaksFor_turn {p p' : Proxy cfg.maxPending} {env : Env} {input : Input} {acts : List (Action cfg.maxPending)}
    (service : InService artifacts env.device) (built : main U sha formulas now sources allowlistText = some artifacts)
    (taken : turn cfg bs p (env, input) = .ok (p', acts)) : SpeaksFor U sources allowlistText ((env, input), acts) := by
  have blocked : ∀ sock client data stale, input = .client sock client data stale → data ≠ [] →
      ((∃ reply, acts = [.blocked sock client reply]) ↔
        AsksListed U sources allowlistText env.device (data.take dnsWireMaxMsgLen)) := by
    rintro sock client data stale rfl received
    cases handleClientDatagram_acts received taken with
    | blocked accepted decided =>
      exact iff_of_true ⟨_, rfl⟩ (asksListed_iff.mpr ⟨_, accepted, (service.blocks_iff bs built).mp decided⟩)
    | refused through => exact iff_of_false (by simp) (through.not_asksListed service built)
    | forwarded through => exact iff_of_false (by simp) (through.not_asksListed service built)
  refine ⟨fun slot bytes sent => ?_, blocked, fun sock client reply sent => ?_, ?_⟩
  · obtain ⟨sock, client, data, stale, rfl, received⟩ := client_of_decides taken sent (.inl ⟨slot, bytes, rfl⟩)
    obtain ⟨⟨-, through⟩, slot', rfl⟩ | ⟨-, others⟩ := handleClientDatagram_sent received taken
    · cases List.mem_singleton.mp sent
      rw [asksListed_dnsWireSetTxid]
      exact LetThrough.not_asksListed through service built
    · cases others _ sent
  · obtain ⟨sock', client', data, stale, rfl, received⟩ := client_of_decides taken sent (.inr ⟨sock, client, reply, rfl⟩)
    cases handleClientDatagram_acts received taken with
    | blocked =>
      cases List.mem_singleton.mp sent
      exact ⟨data, stale, rfl⟩
    | refused => cases List.mem_singleton.mp sent
    | forwarded => cases List.mem_singleton.mp sent
  · intro sock client header spelling qtype qclass rest stale received size counted text source domain listed spelled kept allowed
    refine (blocked sock client _ stale received ?_).mpr
      (asksListed_queryFor source listed kept spelled size counted qtype qclass rest allowed)
    intro nothing
    have none := (List.append_eq_nil_iff.mp (queryFor.eq_def .. ▸ nothing)).1
    rw [none] at size
    cases size

/-- **No query for a listed domain leaves a device in service**: along any run of the proxy
every query is blocked at once exactly when it asks for a domain that the sources list and
no allowlist names, in whatever spelling, and none that is forwarded does. -/
theorem listed_names_stay (built : main U sha formulas now sources allowlistText = some artifacts)
    (run : AnyRun cfg bs upstreamSock past p) (service : ∀ t ∈ past, InService artifacts t.1.1.device) :
    ∀ t ∈ past, SpeaksFor U sources allowlistText t := by
  intro t member
  obtain ⟨_, _, taken⟩ := run.taken_of_mem member
  exact speaksFor_turn (service t member) built taken

end

/-- The device after the update of `oneNameServer`. -/
theorem exists_inService : ∃ d, InService oneNameArtifacts d ∧ ∀ qname, isAllowlisted d qname = .ok false := by
  obtain ⟨d, tr, ran, ⟨sent, unhindered⟩, ⟨ready, fromFlash⟩, enabled, none_allowed⟩ := oneNameServer_updates
  obtain ⟨served, collisionFree⟩ := serves_of_fromPublication sent
  refine ⟨d, ⟨?_, enabled, ready⟩, isAllowlisted_none none_allowed⟩
  exact servesPublication_of_ok (main_eq_some main_oneName) (by decide +kernel) ran served collisionFree unhindered ready
    fromFlash

/-- A query for `A.b`. -/
def capitalQuery : Input :=
  .client .v4 (clientAt 5000#16) (queryFor [0#8, 7#8, 1#8, 0#8, 0#8, 1#8, 0#8, 0#8, 0#8, 0#8, 0#8, 0#8] "A.b".toList
    dnsTypeA 1#16 []) fun _ => 0#8

/-- It is blocked on a device that serves the list of `a.b`. -/
theorem capital_query_stays : ∃ d p reply, InService oneNameArtifacts d ∧
    AnyRun oneSlot .binary 3
      [(({ quietEnv 0 with device := d }, capitalQuery), [.blocked .v4 (clientAt 5000#16) reply])] p := by
  obtain ⟨d, service, none_allowed⟩ := exists_inService
  have decides (qname : List Byte) : ∃ b, blocks .binary ({ quietEnv 0 with device := d } : Env).device qname = .ok b :=
    ⟨_, service.serves.blocks .binary (main_eq_some main_oneName) (fun _ => isDomain_of_mem_allDomains) service.enabled
      service.ready (none_allowed qname)⟩
  obtain ⟨⟨p, acts⟩, taken⟩ := turn_total decides (dnsProxyStart oneSlot 3) capitalQuery
  have run : AnyRun oneSlot .binary 3 ([] ++ [(({ quietEnv 0 with device := d }, capitalQuery), acts)]) p :=
    .turn .start trivial taken
  have speaks := listed_names_stay main_oneName run (by simpa using service) _ (List.mem_singleton_self _)
  obtain ⟨reply, rfl⟩ : ∃ reply, acts = [.blocked .v4 (clientAt 5000#16) reply] :=
    speaks.spelled _ _ _ "A.b".toList _ _ _ _ rfl (by decide) (by decide) _ (List.mem_singleton_self _) "a.b".toList
      (by decide +kernel) (by decide) (by decide +kernel) (none_allowed _)
  exact ⟨d, p, reply, service, run⟩

end EspAdblocker.Dns
