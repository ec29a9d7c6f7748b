import EspAdblocker.Dns.Blocking
import EspAdblocker.Storage.Installing
import EspAdblocker.Tools.Publish

/-!
# From the sources to the decision

The whole way of a list: `blocklist_build.py` publishes three files, a server
hands them out, one run of the updater fetches and installs them, and
`try_block` decides by them. Downloads may be cut short and the card may be
unreliable; when the run succeeds, what is blocked is what the sources list.
-/

namespace EspAdblocker.Dns

open EspAdblocker.Lib EspAdblocker.Bloom EspAdblocker.Tools EspAdblocker.Storage

/-! ## Downloads that are cut short -/

/-- **A part of the tool's image passes the checks only if it is all of it.** -/
theorem eq_of_passesChecks {U : PyUnicode} {D : Finset PyStr} {mBits kHashes buildUnixTs : Nat} {image part : List Byte}
    {f : BloomFilter} (made : bloomBin U D mBits kHashes buildUnixTs = some image) (fits : image.length < 2 ^ 32)
    (start : part <+: image) (checks : PassesChecks part f) : part = image := by
  obtain ⟨header, bits, built, packed, rfl⟩ := toolImage_eq_some made
  have head := length_packHeader packed
  have size := length_buildBitarray built
  have shorter := start.length_le
  rw [List.length_append, head] at fits shorter
  have value : (BitVec.ofNat 32 part.length).toNat = part.length := Nat.mod_eq_of_lt (by omega)
  have accepted := bloomFilterInit_eq_some_iff.mp checks.init
  have headerFits := accepted.headerFits
  rw [value] at headerFits
  obtain ⟨rest, rfl⟩ : header <+: part := List.prefix_of_prefix_length_le (List.prefix_append ..) start (head ▸ headerFits)
  have read := ofBytes_packHeader packed rest
  have count : f.header.mBits = BitVec.ofNat 64 mBits := by rw [accepted.header, read]
  simp only [bloomHeaderLen] at fits
  have inside := checks.inside
  rw [bitarrayBytes_eq count (by omega), accepted.bits, List.drop_left' head, ← size] at inside
  refine start.eq_of_length_le ?_
  rw [List.length_append, List.length_append]
  omega

/-- A digest that was compared is the one that was published, however much of it was fetched. -/
theorem eq_of_digest {sha : Sha256} {content list body : List Byte}
    (fetched : body <+: hexEncodeLower (sha.run list) ++ [10#8])
    (digest : hexEncodeLower (sha.run content) = (body.take 64).map toLowerByte) : sha.run content = sha.run list := by
  have len (bytes : List Byte) : (hexEncodeLower (sha.run bytes)).length = 64 := by
    rw [length_hexEncodeLower, sha.length_run]
  have enough : 64 ≤ body.length := by
    have same := congrArg List.length digest
    rw [len, List.length_map, List.length_take] at same
    omega
  have first : body.take 64 = hexEncodeLower (sha.run list) := by
    obtain ⟨rest, whole⟩ := fetched
    have taken := congrArg (List.take 64) whole
    rwa [List.take_append_of_le_length enough, List.take_left' (len list)] at taken
  rw [first, map_toLowerByte_hexEncodeLower] at digest
  exact hexEncodeLower_injective digest

/-! ## The server and the run -/

/-- What the server sent for the filter and for the digest is the published file, or
the beginning of it. -/
structure Serves (baseUrl : List Byte) (artifacts : Artifacts) (tr : List Event) : Prop where
  bloom : ∀ chunks, (⟨.httpGet (urlOf baseUrl "/bloom.bin"), .response 200 chunks⟩ : Event) ∈ tr →
    bodyOf chunks <+: artifacts.bloomBin
  sha : ∀ chunks, (⟨.httpGet (urlOf baseUrl "/domains.idx.sha256"), .response 200 chunks⟩ : Event) ∈ tr →
    bodyOf chunks <+: artifacts.sha256

/-- No file that was read back has the digest of the published list without being that list. -/
def NoCollision (sha : Sha256) (list : List Byte) (tr : List Event) : Prop :=
  ∀ f content, (⟨.readAll f, content⟩ : Event) ∈ tr → sha.run content = sha.run list → content = list

/-- The device serves the filter of a publication, through the active partition. -/
structure ServesFilter (artifacts : Artifacts) (d : Device) : Prop where
  shows : ShowsPartition d.activePartition d
  flashed : ∃ rest, d.flash d.activePartition = artifacts.bloomBin ++ rest

/-- The device serves both files of a publication, the filter and the list. -/
structure ServesPublication (artifacts : Artifacts) (d : Device) : Prop extends ServesFilter artifacts d where
  loaded : ListLoaded artifacts.domainsIdx d

/-- **A run of the updater that succeeds installs what was published**, unless the
filter could not be mapped or the list not be loaded. -/
theorem servesPublication_of_ok {U : PyUnicode} {sha : Sha256} {D : Finset PyStr} {artifacts : Artifacts}
    {seedLen : BitVec 32} {baseUrl : List Byte} {d d' : Device} {tr : List Event} (published : Publishes U sha D artifacts)
    (fits : artifacts.bloomBin.length < 2 ^ 32)
    (ran : (deviceSem false).traced.Runs (blocklistUpdaterCheckAndApply sha seedLen baseUrl) (d, []) .ok (d', tr))
    (served : Serves baseUrl artifacts tr) (collisionFree : NoCollision sha artifacts.domainsIdx tr)
    (unhindered : tr.any (hindered d'.files) = false) (ready : d'.statics.bloomReady = true)
    (fromFlash : d'.statics.bloomFromSeed = false) : ServesPublication artifacts d' := by
  obtain ⟨⟨chunks, cap, fetched, ⟨f, checks⟩, ⟨rest, stored⟩, serving⟩, list⟩ :=
    blocklistUpdaterCheckAndApply_installs sha seedLen baseUrl d .ok (d', tr) ran rfl
  obtain ⟨chunks', file, content, fetched', read, digest, -, loaded⟩ := list
  obtain ⟨mBits, kHashes, now, -, made⟩ := published.bloom
  have whole := eq_of_passesChecks made fits ((List.take_prefix ..).trans (served.bloom chunks fetched)) checks
  have same : content = artifacts.domainsIdx :=
    collisionFree file content read (eq_of_digest (published.sha ▸ served.sha chunks' fetched') digest)
  refine ⟨⟨?_, ⟨rest, by rw [← whole]; exact stored⟩⟩, same ▸ loaded unhindered⟩
  cases serving with
  | notReady idle => rw [idle] at ready; cases ready
  | seed seed => rw [seed] at fromFlash; cases fromFlash
  | active _ shows => exact shows

/-- What a device blocks that serves the filter of one publication and the list of another. -/
theorem ServesFilter.blocks {U : PyUnicode} {sha sha' : Sha256} {D E : Finset PyStr} {filtered listed : Artifacts} {d : Device}
    {qname : List Byte} {allowlisted : Bool} (bs : Bsearch) (serves : ServesFilter filtered d)
    (loaded : ListLoaded listed.domainsIdx d) (published : Publishes U sha D filtered) (published' : Publishes U sha' E listed)
    (domains : ∀ e ∈ D, IsDomain e) (domains' : ∀ e ∈ E, IsDomain e) (enabled : d.nvs.blockingEnabled = true)
    (ready : d.statics.bloomReady = true) (asked : isAllowlisted d qname = .ok allowlisted) :
    ∃ answer, ((∃ e ∈ D, asciiBytes e = cstr qname) → answer = true) ∧
      blocks bs d qname = .ok (answer && decide (∃ e ∈ E, asciiBytes e = cstr qname) && !allowlisted) := by
  obtain ⟨mBits, kHashes, now, positive, made⟩ := published.bloom
  obtain ⟨rest, flashed⟩ := serves.flashed
  obtain ⟨answer, tests, filters⟩ := bloomTest_toolImage domains positive made (flashed ▸ serves.shows.bloomTest_eq) qname
  have confirms := sdStorageConfirm_listNames bs domains' published'.nonempty published'.idx loaded qname
  simp only [mem_listNames] at confirms filters
  refine ⟨answer, filters, ?_⟩
  rw [Dns.blocks, if_pos ⟨enabled, ready⟩, tests]
  simp only [bind, Except.bind, asked, confirms]
  by_cases member : ∃ e ∈ E, asciiBytes e = cstr qname
  · rw [if_pos member, decide_eq_true member]
    cases answer <;> cases allowlisted <;> rfl
  · rw [if_neg member, decide_eq_false member]
    cases answer <;> cases allowlisted <;> rfl

/-- A device that serves a publication blocks the domains of it that are not allowlisted. -/
theorem ServesPublication.blocks {U : PyUnicode} {sha : Sha256} {D : Finset PyStr} {artifacts : Artifacts} {d : Device}
    {qname : List Byte} {allowlisted : Bool} (bs : Bsearch) (serves : ServesPublication artifacts d)
    (published : Publishes U sha D artifacts) (domains : ∀ e ∈ D, IsDomain e) (enabled : d.nvs.blockingEnabled = true)
    (ready : d.statics.bloomReady = true) (asked : isAllowlisted d qname = .ok allowlisted) :
    blocks bs d qname = .ok (decide (∃ e ∈ D, asciiBytes e = cstr qname) && !allowlisted) := by
  obtain ⟨answer, filters, decided⟩ := serves.toServesFilter.blocks bs serves.loaded published published domains domains enabled
    ready asked
  rw [decided]
  by_cases member : ∃ e ∈ D, asciiBytes e = cstr qname
  · rw [filters member, Bool.true_and]
  · rw [decide_eq_false member, Bool.and_false]

/-- The name is a domain of a source, and the tool's allowlist does not name it. -/
def Listed (U : PyUnicode) (sources : List PyStr) (allowlistText : Option PyStr) (name : List Byte) : Prop :=
  ∃ e, asciiBytes e = name ∧ (∃ text ∈ sources, e ∈ parseHostsFormat U text) ∧ e ∉ loadAllowlist U allowlistText

/-- **What the sources list is what is blocked**, end to end. When the tool built its
files from the sources, the server sent them or beginnings of them, and a run of the
updater succeeded, a name is blocked exactly if it is a domain of some source that
neither allowlist names, that of the tool or that of the device. -/
theorem published_domains_blocked (U : PyUnicode) (sha : Sha256) (bs : Bsearch) {formulas : Formulas} {now : Nat}
    {sources : List PyStr} {allowlistText : Option PyStr} {artifacts : Artifacts} {seedLen : BitVec 32}
    {baseUrl : List Byte} {d d' : Device} {tr : List Event}
    (built : main U sha formulas now sources allowlistText = some artifacts) (fits : artifacts.bloomBin.length < 2 ^ 32)
    (ran : (deviceSem false).traced.Runs (blocklistUpdaterCheckAndApply sha seedLen baseUrl) (d, []) .ok (d', tr))
    (served : Serves baseUrl artifacts tr) (collisionFree : NoCollision sha artifacts.domainsIdx tr)
    (unhindered : tr.any (hindered d'.files) = false) (ready : d'.statics.bloomReady = true)
    (fromFlash : d'.statics.bloomFromSeed = false) (enabled : d'.nvs.blockingEnabled = true) (buf : List Byte) (n : Nat)
    {q : DnsWireQuestion} {allowlisted : Bool} (asked : isAllowlisted d' q.qname = .ok allowlisted) :
    (Listed U sources allowlistText (cstr q.qname) ∧ allowlisted = false →
      tryBlock bs d' buf n q = .ok (some (blockReply d'.nvs.policy buf n q))) ∧
    (¬ (Listed U sources allowlistText (cstr q.qname) ∧ allowlisted = false) → tryBlock bs d' buf n q = .ok none) := by
  have published := main_eq_some built
  have listed : (∃ e ∈ allDomains U sources allowlistText, asciiBytes e = cstr q.qname) ↔
      Listed U sources allowlistText (cstr q.qname) := by
    simp only [mem_allDomains, Listed, and_comm]
  have serves := servesPublication_of_ok published fits ran served collisionFree unhindered ready fromFlash
  rw [tryBlock_of_blocks (serves.blocks bs published (fun _ => isDomain_of_mem_allDomains) enabled ready asked)]
  constructor
  · rintro ⟨member, rfl⟩
    rw [decide_eq_true (listed.mpr member)]
    rfl
  · intro spared
    have answer : (decide (∃ e ∈ allDomains U sources allowlistText, asciiBytes e = cstr q.qname) && !allowlisted) = false := by
      rw [Bool.and_eq_false_iff, decide_eq_false_iff_not, listed, Bool.not_eq_false']
      by_cases member : Listed U sources allowlistText (cstr q.qname)
      · exact .inr (by simpa [member] using spared)
      · exact .inl member
    rw [answer]
    rfl

/-! ## One name -/

/-- A hash that agrees with SHA-256 on the list of `a.b`. -/
def oneNameSha : Sha256 where
  run bytes :=
    if bytes = asciiBytes "a.b\n".toList then
      [0x30#8, 0x28#8, 0xAC#8, 0xF5#8, 0xE4#8, 0xC1#8, 0x11#8, 0x7A#8, 0xB3#8, 0xD2#8, 0xBF#8, 0xBF#8, 0x5E#8, 0xCF#8,
        0xFB#8, 0x4D#8, 0x31#8, 0x47#8, 0xC9#8, 0xAC#8, 0xB4#8, 0x52#8, 0xFB#8, 0x37#8, 0x5F#8, 0x27#8, 0xA5#8, 0x7A#8,
        0xCD#8, 0x0B#8, 0xC9#8, 0xB7#8]
    else List.replicate 32 0#8
  length_run bytes := by split <;> rfl

/-- What the tool makes of `a.b`, at its default false-positive rate. -/
def oneNameArtifacts : Artifacts where
  bloomBin := (toolImage asciiUnicode ["a.b".toList] 15 10 1 0).getD []
  domainsIdx := asciiBytes "a.b\n".toList
  sha256 := textBytes "3028acf5e4c1117ab3d2bfbf5ecffb4d3147c9acb452fb375f27a57acd0bc9b7\n"

/-- A server of these files that sends the image in two pieces and loses the end of the digest. -/
def oneNameServer (url : List Byte) : Reply :=
  if url = textBytes "/bloom.bin" then
    .response 200 [oneNameArtifacts.bloomBin.take 20, oneNameArtifacts.bloomBin.drop 20]
  else if url = textBytes "/domains.idx" then .response 200 [oneNameArtifacts.domainsIdx]
  else .response 200 [oneNameArtifacts.sha256.take 64]

/-- A device that was never updated. -/
def blankDevice : Device where
  partSize _ := some 64#32
  flash _ := []
  files _ := none
  seed := []
  statics := { mounted := true }

/-- What was fetched or read back is a file of the publication, or the beginning of one. -/
def fromPublication : Event → Bool
  | ⟨.httpGet url, .response _ chunks⟩ =>
    (url != textBytes "/bloom.bin" || (bodyOf chunks).isPrefixOf oneNameArtifacts.bloomBin) &&
      (url != textBytes "/domains.idx.sha256" || (bodyOf chunks).isPrefixOf oneNameArtifacts.sha256)
  | ⟨.readAll _, content⟩ => content == oneNameArtifacts.domainsIdx
  | _ => true

/-- Two domains are listed. -/
def twoNameSources : List PyStr := ["0.0.0.0 a.b\n127.0.0.1 c.d".toList]

/-- The tool's allowlist names one of them. -/
def oneNameAllowlist : Option PyStr := some "# kept\nC.d.".toList

theorem allDomains_oneName : allDomains asciiUnicode twoNameSources oneNameAllowlist = {"a.b".toList} := by
  decide +kernel

theorem main_oneName :
    main asciiUnicode oneNameSha ⟨fun _ => 15, fun _ => 10⟩ 0 twoNameSources oneNameAllowlist = some oneNameArtifacts := by
  simp only [main, allDomains_oneName, bloomBin, domainsIdx, sortedDomains, Finset.sort_singleton, Finset.card_singleton]
  decide +kernel

/-- Such events are those of a server of the publication. -/
theorem serves_of_fromPublication {tr : List Event} (sent : tr.all fromPublication = true) :
    Serves [] oneNameArtifacts tr ∧ NoCollision oneNameSha oneNameArtifacts.domainsIdx tr := by
  refine ⟨⟨?_, ?_⟩, ?_⟩
  · intro chunks fetched
    have one := List.all_eq_true.mp sent _ fetched
    rw [show urlOf [] "/bloom.bin" = textBytes "/bloom.bin" by decide] at one
    simp only [fromPublication, bne_self_eq_false, Bool.false_or, Bool.and_eq_true, List.isPrefixOf_iff_prefix] at one
    exact one.1
  · intro chunks fetched
    have one := List.all_eq_true.mp sent _ fetched
    rw [show urlOf [] "/domains.idx.sha256" = textBytes "/domains.idx.sha256" by decide] at one
    simp only [fromPublication, bne_self_eq_false, Bool.false_or, Bool.and_eq_true, List.isPrefixOf_iff_prefix] at one
    exact one.2
  · intro f content read _
    have one := List.all_eq_true.mp sent _ read
    simpa [fromPublication] using one

/-- An update from the server. -/
theorem oneNameServer_updates : ∃ d' tr, (deviceSem false).traced.Runs (blocklistUpdaterCheckAndApply oneNameSha 0#32 [])
      (blankDevice, []) .ok (d', tr) ∧ (tr.all fromPublication = true ∧ tr.any (hindered d'.files) = false) ∧
      (d'.statics.bloomReady = true ∧ d'.statics.bloomFromSeed = false) ∧ d'.nvs.blockingEnabled = true ∧
      d'.statics.allowlistCount = 0 := by
  have ends : ((blocklistUpdaterCheckAndApply oneNameSha 0#32 []).exec (Sem.recorded (Device.ideal oneNameServer))
      (blankDevice, [])).map (fun last => ((last.1, last.2.1.statics.bloomReady, last.2.1.statics.bloomFromSeed),
        (last.2.1.nvs.blockingEnabled, last.2.1.statics.allowlistCount), last.2.2.any (hindered last.2.1.files),
        last.2.2.all fromPublication)) = some ((.ok, true, false), (true, 0), false, true) := by
    decide +kernel
  obtain ⟨⟨err, d', tr⟩, executed, found⟩ := Option.map_eq_some_iff.mp ends
  simp only [Prod.mk.injEq] at found
  obtain ⟨⟨rfl, ready, fromFlash⟩, ⟨enabled, none_allowed⟩, unhindered, sent⟩ := found
  exact ⟨d', tr, Device.runs_recorded_ideal false executed, ⟨sent, unhindered⟩, ⟨ready, fromFlash⟩, enabled, none_allowed⟩

/-- Without an allowlist nothing is allowed. -/
theorem isAllowlisted_none {d : Device} (none_allowed : d.statics.allowlistCount = 0) (qname : List Byte) :
    isAllowlisted d qname = .ok false := by
  simp [isAllowlisted, none_allowed]

/-- Of two listed domains the tool's allowlist names one, `c.d`; after the update `a.b`
is blocked and `c.d` is let through. -/
theorem one_of_two_published : ∃ d' tr, (deviceSem false).traced.Runs (blocklistUpdaterCheckAndApply oneNameSha 0#32 [])
      (blankDevice, []) .ok (d', tr) ∧
    tryBlock .binary d' [] 0 (questionFor "a.b".toList) = .ok (some (blockReply d'.nvs.policy [] 0 (questionFor "a.b".toList))) ∧
    tryBlock .binary d' [] 0 (questionFor "c.d".toList) = .ok none := by
  obtain ⟨d', tr, ran, ⟨sent, unhindered⟩, ⟨ready, fromFlash⟩, enabled, none_allowed⟩ := oneNameServer_updates
  obtain ⟨served, collisionFree⟩ := serves_of_fromPublication sent
  have decides (q : DnsWireQuestion) := published_domains_blocked asciiUnicode oneNameSha .binary main_oneName
    (by decide +kernel) ran served collisionFree unhindered ready fromFlash enabled [] 0 (isAllowlisted_none none_allowed q.qname)
  refine ⟨d', tr, ran, ?_, ?_⟩
  · refine (decides (questionFor "a.b".toList)).1 ⟨⟨"a.b".toList, by decide +kernel, ⟨_, List.mem_singleton_self _, ?_⟩, ?_⟩, rfl⟩
    · decide +kernel
    · decide +kernel
  · refine (decides (questionFor "c.d".toList)).2 ?_
    rintro ⟨⟨e, name, listed, kept⟩, -⟩
    have member := mem_allDomains.mpr ⟨listed, kept⟩
    rw [allDomains_oneName, Finset.mem_singleton] at member
    rw [member] at name
    revert name
    decide +kernel

end EspAdblocker.Dns
