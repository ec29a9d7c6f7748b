import EspAdblocker.Dns.Blocking
import EspAdblocker.Dns.Statistics
import EspAdblocker.Web.Config

/-!
# The status page

`status_get_handler` puts the counters, the loaded filter and the network into
one object. What it shows of the queries agrees with the whole run of the proxy,
and what it shows of the filter is read from the image that lookups use.
-/

namespace EspAdblocker.Web

open EspAdblocker.Lib EspAdblocker.Storage EspAdblocker.Bloom EspAdblocker.Dns

/-- `dns_proxy_get_stats`: the counters, and the blocks of the last day. -/
def dnsProxyGetStats {N : Nat} (p : Proxy N) (unixTime : Nat) : DnsProxyStats × BitVec 32 :=
  (p.stats, blockedLast24h p.history unixTime)

/-- `dns_proxy_bloom_info_t`. -/
structure DnsProxyBloomInfo where
  ready : Bool := false
  fromEmbeddedSeed : Bool := false
  nDomains : BitVec 64 := 0#64
  mBits : BitVec 64 := 0#64
  kHashes : BitVec 32 := 0#32
  buildUnixTs : BitVec 64 := 0#64
  deriving DecidableEq, Repr

/-- `dns_proxy_get_bloom_info`, which follows the header's pointer when a filter is ready. -/
def dnsProxyGetBloomInfo (d : Device) : Except Fault DnsProxyBloomInfo :=
  let ready := d.statics.bloomReady
  let fromEmbeddedSeed := d.statics.bloomFromSeed
  if ready then
    match d.statics.bloomHeader.bind d.regionBytes with
    | none => .error .deadStorage
    | some bytes =>
      let header := BloomHeader.ofBytes bytes
      .ok { ready, fromEmbeddedSeed, nDomains := header.nDomains, mBits := header.mBits
            kHashes := header.kHashes, buildUnixTs := header.buildUnixTs }
  else .ok { ready, fromEmbeddedSeed }

/-- A value of the status object; a number is shown before its conversion to `double`. -/
inductive StatusValue where
  | number (n : Int)
  | bool (b : Bool)
  | string (s : List Byte)
  | array (items : List (List Byte))
  deriving DecidableEq, Repr

/-- What the handler asks of the rest of the system. -/
structure StatusEnv where
  /-- `esp_timer_get_time()`, and what it returned to `dns_proxy_start`. -/
  now : Int
  startTimeUs : Int
  /-- `time(NULL)`. -/
  unixTime : Nat
  /-- The addresses of the interface, if there is one that has them. -/
  ipInfo : Option IpInfo
  ip6 : List (List Byte)
  fwVersion : List Byte
  freeHeap : Nat
  freePsram : Nat

/-- `eth_ip`, `eth_mask` and `eth_gw`. -/
def ipFields (ips : IpText) (info : Option IpInfo) : List (String × StatusValue) :=
  match info with
  | none => []
  | some info => [("eth_ip", .string (ips.ntoa info.ip)), ("eth_mask", .string (ips.ntoa info.netmask)),
      ("eth_gw", .string (ips.ntoa info.gw))]

/-- `status_get_handler`. -/
def statusGet {N : Nat} (ips : IpText) (env : StatusEnv) (d : Device) (p : Proxy N) :
    Except Fault (List (String × StatusValue)) := do
  let (stats, blocked24h) := dnsProxyGetStats p env.unixTime
  let bloom ← dnsProxyGetBloomInfo d
  return [("uptime_s", .number ((env.now - env.startTimeUs).tdiv 1000000)),
      ("queries_total", .number stats.queriesTotal.toNat), ("queries_blocked", .number stats.queriesBlocked.toNat),
      ("queries_forwarded", .number stats.queriesForwarded.toNat),
      ("queries_servfail", .number stats.queriesServfail.toNat), ("queries_blocked_24h", .number blocked24h.toNat),
      ("bloom_ready", .bool bloom.ready), ("bloom_from_seed", .bool bloom.fromEmbeddedSeed),
      ("bloom_domains", .number bloom.nDomains.toNat), ("bloom_build_unix_ts", .number bloom.buildUnixTs.toNat),
      ("bloom_active_slot", .number d.nvs.bloomActiveSlot.toNat),
      ("exact_list_active_slot", .number d.nvs.exactListActiveSlot.toNat), ("sd_mounted", .bool d.statics.mounted)] ++
    ipFields ips env.ipInfo ++
    [("eth_ip6", .array env.ip6), ("fw_version", .string env.fwVersion), ("free_heap", .number env.freeHeap),
      ("free_psram", .number env.freePsram)]

/-! ## What it shows of the queries -/

/-- The numbers of the page are those of the run, modulo 2^32. -/
structure ShowsRun {N : Nat} (past : List (Turn (Env × Input) (Action N))) (unixTime : Nat)
    (object : List (String × StatusValue)) : Prop where
  total : object.lookup "queries_total" = some (.number (arrivals past % 2 ^ 32 : Nat))
  blocked : object.lookup "queries_blocked" = some (.number (fates (performed past) .blocked % 2 ^ 32 : Nat))
  forwarded : object.lookup "queries_forwarded" = some (.number (fates (performed past) .forwarded % 2 ^ 32 : Nat))
  servfail : object.lookup "queries_servfail" =
    some (.number ((fates (performed past) .refused + fates (performed past) .timedOut) % 2 ^ 32 : Nat))
  lastDay : object.lookup "queries_blocked_24h" = some (.number
    (((blockTimes past).countP fun time => WithinDay (unixTime / 3600) (time / 3600)) % 2 ^ 32 : Nat))

/-! ## What it shows of the filter -/

/-- The page says whether a filter is ready, where its image came from, and what the image's header says. -/
structure ShowsFilter (d : Device) (object : List (String × StatusValue)) : Prop where
  ready : object.lookup "bloom_ready" = some (.bool d.statics.bloomReady)
  seed : object.lookup "bloom_from_seed" = some (.bool d.statics.bloomFromSeed)
  slot : object.lookup "bloom_active_slot" = some (.number d.nvs.bloomActiveSlot.toNat)
  domains : object.lookup "bloom_domains" = some (.number (if d.statics.bloomReady then
    (BloomHeader.ofBytes d.servedImage).nDomains.toNat else 0 : Nat))
  built : object.lookup "bloom_build_unix_ts" = some (.number (if d.statics.bloomReady then
    (BloomHeader.ofBytes d.servedImage).buildUnixTs.toNat else 0 : Nat))
  /-- It is the image that the test of a name reads. -/
  served : d.statics.bloomReady = true → ∀ name, d.bloomTest name =
    bloomFilterTest ⟨.ofBytes d.servedImage, d.servedImage.drop bloomHeaderLen⟩ name

section

variable {cfg : Kconfig} {bs : Bsearch} {upstreamSock : Int} {past : List (Turn (Env × Input) (Action cfg.maxPending))}
  {p : Proxy cfg.maxPending}

/-- The information is complete whenever the filter was left by a reload. -/
theorem dnsProxyGetBloomInfo_ok {d : Device} (serving : BloomServing d) :
    ∃ info, dnsProxyGetBloomInfo d = .ok info ∧ info.ready = d.statics.bloomReady ∧
      info.fromEmbeddedSeed = d.statics.bloomFromSeed ∧
      info.nDomains.toNat = (if d.statics.bloomReady then (BloomHeader.ofBytes d.servedImage).nDomains.toNat else 0) ∧
      info.buildUnixTs.toNat =
        if d.statics.bloomReady then (BloomHeader.ofBytes d.servedImage).buildUnixTs.toNat else 0 := by
  unfold dnsProxyGetBloomInfo
  cases ready : d.statics.bloomReady with
  | false => exact ⟨_, rfl, rfl, rfl, rfl, rfl⟩
  | true =>
    rw [(serving.regionBytes ready).1]
    exact ⟨_, rfl, rfl, rfl, rfl, rfl⟩

/-- **The status page is truthful**: after any run of the proxy and any reload of the filter the
request is answered, its numbers are those of the run, the blocks of the last day are those of the
last 24 clock hours, and the filter it describes is the one that names are tested with. -/
theorem status_truthful {ips : IpText} {env : StatusEnv} {short : Bool} {seedLen : BitVec 32} {d₀ d : Device}
    (run : AnyRun cfg bs upstreamSock past p) (ordered : (past.map fun t => t.1.1.unixTime).Pairwise (· ≤ ·))
    (later : ∀ t ∈ past, t.1.1.unixTime ≤ env.unixTime)
    (reloaded : (deviceSem short).Runs (dnsProxyReloadBloomFilter seedLen) d₀ () d) :
    ∃ object, statusGet ips env d p = .ok object ∧ ShowsRun past env.unixTime object ∧ ShowsFilter d object := by
  have counted := statistics_exact run
  have lastDay := counted.last24h ordered later
  have serving := (dnsProxyReloadBloomFilter_ends seedLen d₀ () d reloaded).2
  obtain ⟨info, described, ready, seed, domains, built⟩ := dnsProxyGetBloomInfo_ok serving
  unfold statusGet
  simp only [described, bind, Except.bind, pure, Except.pure, dnsProxyGetStats]
  refine ⟨_, rfl, ⟨?_, ?_, ?_, ?_, ?_⟩, ?_, ?_, ?_, ?_, ?_, fun loaded name => ?_⟩
  · simp [List.lookup_cons, counted.total]
  · simp [List.lookup_cons, counted.blocked]
  · simp [List.lookup_cons, counted.forwarded]
  · simp [List.lookup_cons, counted.servfail]
  · simp [List.lookup_cons, lastDay]
  · simp [List.lookup_cons, ready]
  · simp [List.lookup_cons, seed]
  · simp [List.lookup_cons]
  · simp [List.lookup_cons, domains]
  · simp [List.lookup_cons, built]
  · exact serving.bloomTest_eq loaded name

end

/-- A request an hour after the start, on a device without an address. -/
def sampleStatusEnv : StatusEnv where
  now := 3600000000
  startTimeUs := 0
  unixTime := 3600
  ipInfo := none
  ip6 := []
  fwVersion := []
  freeHeap := 0
  freePsram := 0

/-- After the sample run, with the filter of one name in flash. -/
theorem sample_status_truthful : ∃ past p d object, AnyRun oneSlot .binary 3 past p ∧
    (deviceSem false).Runs (dnsProxyReloadBloomFilter 0#32) oneNameDevice () d ∧
    statusGet ⟨fun _ => 0#32, fun _ => []⟩ sampleStatusEnv d p = .ok object ∧
    ShowsRun past sampleStatusEnv.unixTime object ∧ ShowsFilter d object ∧
    object.lookup "queries_total" = some (.number 3) ∧ object.lookup "bloom_domains" = some (.number 1) := by
  have computed : (Handler.exec (turn oneSlot .binary) (dnsProxyStart oneSlot 3) sampleInputs).map
      (fun done => (arrivals done.2, done.2.map fun t => t.1.1.unixTime)) = .ok (3, [0, 0, 0, 0, 0]) := by
    decide +kernel
  have loads : ((dnsProxyReloadBloomFilter 0#32).exec (Device.ideal fun _ => .noClient) oneNameDevice).map (fun last =>
      (last.2.statics.bloomReady, (BloomHeader.ofBytes (Device.servedImage last.2)).nDomains.toNat)) = some (true, 1) := by
    decide +kernel
  obtain ⟨⟨p, past⟩, done, found⟩ := exists_of_map_eq_ok computed
  obtain ⟨received, times⟩ := Prod.mk.inj found
  obtain ⟨⟨_, d⟩, reached, shown⟩ := Option.map_eq_some_iff.mp loads
  obtain ⟨ready, one⟩ := Prod.mk.inj shown
  have run : AnyRun oneSlot .binary 3 past p := Handler.run_exec .start (fun _ _ _ _ => trivial) done
  have reloaded := Device.runs_ideal false reached
  have ordered : (past.map fun t => t.1.1.unixTime).Pairwise (· ≤ ·) := by
    rw [times]
    decide
  have later : ∀ t ∈ past, t.1.1.unixTime ≤ sampleStatusEnv.unixTime := by
    intro t member
    have inside : t.1.1.unixTime ∈ past.map fun t => t.1.1.unixTime := List.mem_map.mpr ⟨t, member, rfl⟩
    rw [times] at inside
    have zero : t.1.1.unixTime = 0 := by simpa using inside
    rw [zero]
    decide
  have truthful : ∃ object, statusGet ⟨fun _ => 0#32, fun _ => []⟩ sampleStatusEnv d p = .ok object ∧
      ShowsRun past sampleStatusEnv.unixTime object ∧ ShowsFilter d object :=
    status_truthful run ordered later reloaded
  obtain ⟨object, answered, shows, filter⟩ := truthful
  refine ⟨past, p, d, object, run, reloaded, answered, shows, filter, ?_, ?_⟩
  · rw [shows.total, received]
    rfl
  · rw [filter.domains, ready, one]
    rfl

end EspAdblocker.Web
