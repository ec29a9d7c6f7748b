import EspAdblocker.Bloom.Corruption
import EspAdblocker.Dns.Proxy
import EspAdblocker.Storage.Membership

/-!
# What is blocked

The chain from the lists the tool read to the decision of `try_block`: the
filter loaded from the image of one list says yes to all its names and never
faults, and the list loaded from the file of another confirms exactly its names,
because code-point order of the names is `strcmp` order of their bytes.
-/

namespace EspAdblocker.Dns

open EspAdblocker.Lib EspAdblocker.Bloom EspAdblocker.Tools EspAdblocker.Storage

/-! ## The order of the file -/

/-- The code points of ASCII text are its byte values. -/
theorem byteValues_asciiBytes {s : PyStr} (ascii : IsAscii s) : byteValues (asciiBytes s) = s.map Char.toNat := by
  rw [byteValues, asciiBytes, List.map_map]
  refine List.map_congr_left fun c member => ?_
  have small := ascii c member
  simp only [Function.comp_apply, BitVec.toNat_ofNat]
  omega

/-- **Python's order of ASCII text is the order of its bytes.** -/
theorem byteValues_le_of_le {d e : PyStr} (hd : IsAscii d) (he : IsAscii e) (le : d ≤ e) :
    byteValues (asciiBytes d) ≤ byteValues (asciiBytes e) := by
  rw [byteValues_asciiBytes hd, byteValues_asciiBytes he]
  rcases lt_or_eq_of_le le with less | rfl
  · have mono : ∀ x y : Char, x < y → x.toNat < y.toNat := fun x y h => h
    exact le_of_lt (List.map_lt mono less)
  · exact le_refl _

/-- The lines of a line file are its names. -/
theorem terminated_lineFile {names : List PyStr} {content : List Byte} (some_name : names ≠ [])
    (clean : ∀ name ∈ names, '\n' ∉ name) (written : lineFile names = some content) :
    terminated 10#8 content = names.map asciiBytes := by
  obtain ⟨ascii, bytes⟩ := lineFile_eq_some some_name written
  rw [bytes, terminated_closedBy]
  intro line member
  obtain ⟨name, inside, rfl⟩ := List.mem_map.mp member
  exact fun newline => clean name inside ((mem_asciiBytes (ascii name inside) (by decide)).mp newline)

/-- **Python's order is the device's**: names in order, joined and closed by
newlines, are a sorted file. -/
theorem sortedText_lineFile {names : List PyStr} {content : List Byte} (ordered : names.Pairwise (· ≤ ·))
    (clean : ∀ name ∈ names, '\n' ∉ name ∧ '\x00' ∉ name) (written : lineFile names = some content) :
    SortedText content := by
  by_cases some_name : names = []
  · obtain rfl : content = [10#8] := by
      rw [some_name] at written
      exact (Option.some.inj written).symm
    have lines : terminated 10#8 [10#8] = [[]] := rfl
    refine ⟨fun line member => ?_, by simp [fileNames, lines]⟩
    rw [lines, List.mem_singleton] at member
    rw [member]
    exact fun _ member => absurd member List.not_mem_nil
  · have ascii := (lineFile_eq_some some_name written).1
    have lines := terminated_lineFile some_name (fun name member => (clean name member).1) written
    constructor
    · rw [lines]
      intro line member
      obtain ⟨name, inside, rfl⟩ := List.mem_map.mp member
      rintro b here rfl
      exact (clean name inside).2 ((mem_asciiBytes (ascii name inside) (by decide)).mp here)
    · rw [fileNames, lines]
      refine List.Pairwise.sublist List.filter_sublist (List.pairwise_map.mpr ?_)
      exact ordered.imp_of_mem fun hx hy le => byteValues_le_of_le (ascii _ hx) (ascii _ hy) le

/-- The lines of `domains.idx`. -/
def listNames (D : Finset PyStr) : List (List Byte) := (sortedDomains D).map asciiBytes

theorem mem_listNames {D : Finset PyStr} {name : List Byte} : name ∈ listNames D ↔ ∃ d ∈ D, asciiBytes d = name := by
  simp [listNames]

/-- The file the tool writes of domains is sorted, and its names are the domains. -/
theorem fileNames_domainsIdx {D : Finset PyStr} {list : List Byte} (domains : ∀ d ∈ D, IsDomain d) (nonempty : D.Nonempty)
    (written : domainsIdx D = some list) : SortedText list ∧ fileNames list = listNames D := by
  have clean : ∀ name ∈ sortedDomains D, '\n' ∉ name ∧ '\x00' ∉ name := fun name member =>
    (domains name (mem_sortedDomains.mp member)).clean
  have some_name : sortedDomains D ≠ [] := by
    obtain ⟨d, member⟩ := nonempty
    exact List.ne_nil_of_mem (mem_sortedDomains.mpr member)
  refine ⟨sortedText_lineFile (Finset.pairwise_sort D (· ≤ ·)) clean written, ?_⟩
  rw [fileNames, terminated_lineFile some_name (fun name member => (clean name member).1) written, ← listNames,
    List.filter_eq_self]
  intro name member
  obtain ⟨d, inside, rfl⟩ := mem_listNames.mp member
  simpa [asciiBytes] using (domains d inside).nonempty

/-! ## The two artifacts -/

/-- The loaded list confirms exactly the names the file was written for. -/
theorem sdStorageConfirm_listNames (bs : Bsearch) {D : Finset PyStr} {list : List Byte} {d : Device}
    (domains : ∀ e ∈ D, IsDomain e) (nonempty : D.Nonempty) (written : domainsIdx D = some list) (loaded : ListLoaded list d)
    (domain : List Byte) :
    d.sdStorageConfirm bs domain = .ok (if cstr domain ∈ listNames D then .blocked else .notBlocked) := by
  obtain ⟨text, names⟩ := fileNames_domainsIdx domains nonempty written
  have some_name : fileNames list ≠ [] := by
    obtain ⟨e, member⟩ := nonempty
    rw [names]
    exact List.ne_nil_of_mem (mem_listNames.mpr ⟨e, member, rfl⟩)
  rw [loaded.confirm text, if_neg some_name, names]

/-- A filter over the tool's image answers every query, and says yes to every name of its list. -/
theorem bloomTest_toolImage {U : PyUnicode} {D : Finset PyStr} {mBits kHashes buildUnixTs : Nat} {image rest : List Byte}
    {d : Device} (domains : ∀ e ∈ D, IsDomain e) (positive : 1 ≤ mBits)
    (made : bloomBin U D mBits kHashes buildUnixTs = some image)
    (tested : ∀ domain, d.bloomTest domain =
      bloomFilterTest ⟨.ofBytes (image ++ rest), (image ++ rest).drop bloomHeaderLen⟩ domain) (domain : List Byte) :
    ∃ answer, d.bloomTest domain = .ok answer ∧ (cstr domain ∈ listNames D → answer = true) := by
  obtain ⟨header, bits, built, packed, rfl⟩ := toolImage_eq_some made
  have fits := (packHeader_eq_some_iff.mp packed).1
  have read := ofBytes_packHeader packed (bits ++ rest)
  have normalized : ∀ e ∈ sortedDomains D, Normalized U e := fun e member =>
    normalized_of_isDomain U (domains e (mem_sortedDomains.mp member))
  have hm : (BloomHeader.ofBytes (header ++ (bits ++ rest))).mBits = BitVec.ofNat 64 mBits := by rw [read]
  have hk : (BloomHeader.ofBytes (header ++ (bits ++ rest))).kHashes = BitVec.ofNat 32 kHashes := by rw [read]
  obtain ⟨bits', built', len, tests⟩ := buildBitarray_positive positive fits.mBits fits.kHashes hm hk normalized
  obtain rfl : bits = bits' := Option.some.inj (built.symm.trans built')
  have answers : Answers (BitVec.ofNat 64 mBits) (bits ++ rest) :=
    answers_of_length positive fits.mBits (by rw [List.length_append]; omega)
  rw [← hm] at answers
  rw [tested, List.append_assoc, List.drop_left' (length_packHeader packed)]
  generalize BloomHeader.ofBytes (header ++ (bits ++ rest)) = hdr at answers tests ⊢
  have total := bloomFilterTest_eq (f := ⟨hdr, bits ++ rest⟩) answers
  refine ⟨_, total domain, fun member => ?_⟩
  obtain ⟨e, inside, named⟩ := mem_listNames.mp member
  have yes := tests rest e (mem_sortedDomains.mpr inside)
  rw [total, named, cstr_eq_self (nulFree_cstr domain)] at yes
  exact Except.ok.inj yes

/-! ## The decision -/

/-- Domains that `parse_hosts_format` returned, for any texts. -/
def Parsed (U : PyUnicode) (D : Finset PyStr) : Prop :=
  ∀ d ∈ D, ∃ text, d ∈ parseHostsFormat U text

theorem Parsed.isDomain {U : PyUnicode} {D : Finset PyStr} (h : Parsed U D) : ∀ d ∈ D, IsDomain d := by
  intro d member
  obtain ⟨text, found⟩ := h d member
  exact isDomain_of_mem_parseHostsFormat found

/-- **Blocking is exact.** With the image of `D₁` served, from flash or as the seed,
the file of `D₂` read by the load and blocking enabled, a name that is not allowlisted
is blocked if it is in both lists, and let through if it is not in `D₂`, whatever the
filter says. -/
theorem blocking_is_exact (U : PyUnicode) (bs : Bsearch) {D₁ D₂ : Finset PyStr} {mBits kHashes buildUnixTs : Nat}
    {image list rest : List Byte} {seedLen : BitVec 32} {d₀ d₁ d₂ : Device} {u : Unit} {tr : List Event}
    (parsed₁ : Parsed U D₁) (parsed₂ : Parsed U D₂) (nonempty : D₂.Nonempty) (positive : 1 ≤ mBits)
    (made : bloomBin U D₁ mBits kHashes buildUnixTs = some image) (written : domainsIdx D₂ = some list)
    (reloaded : (deviceSem false).Runs (dnsProxyReloadBloomFilter seedLen) d₀ u d₁)
    (ready : d₁.statics.bloomReady = true) (served : d₁.servedImage = image ++ rest)
    (loaded : (deviceSem false).traced.Runs sdStorageLoadDomainList (d₁, []) .ok (d₂, tr))
    (stored : ∀ f read, (f, read) ∈ reads tr → d₀.files f = some list) (enabled : d₂.nvs.blockingEnabled = true)
    (buf : List Byte) (n : Nat) {q : DnsWireQuestion} (notAllowlisted : isAllowlisted d₂ q.qname = .ok false) :
    (∀ d, d ∈ D₁ → d ∈ D₂ → cstr q.qname = asciiBytes d → ∃ reply, tryBlock bs d₂ buf n q = .ok (some reply)) ∧
    ((∀ d ∈ D₂, cstr q.qname ≠ asciiBytes d) → tryBlock bs d₂ buf n q = .ok none) := by
  -- the filter: the reload left it, and loading the list leaves it as it is
  obtain ⟨kept₁, serving₁⟩ := dnsProxyReloadBloomFilter_ends seedLen d₀ u d₁ reloaded
  obtain ⟨same, outcome⟩ := (((ends_sameBloom (sdStorageLoadDomainList_listLoads.mono fun _ h => h.2) d₁).traced []).and
    (sdStorageLoadDomainList_outcome d₁)) .ok (d₂, tr) loaded
  have serving₂ : BloomServing d₂ := (same.spares _).serving serving₁
  have ready₂ : d₂.statics.bloomReady = true := (congrArg BloomStatics.ready same.statics).trans ready
  have image₂ : d₂.servedImage = d₁.servedImage := by
    have fromSeed : d₂.statics.bloomFromSeed = d₁.statics.bloomFromSeed := congrArg BloomStatics.fromSeed same.statics
    rw [Device.servedImage, fromSeed, same.seed, same.flash, (same.spares _).activePartition]
    rfl
  have tested (name : List Byte) := serving₂.bloomTest_eq ready₂ name
  rw [image₂, served] at tested
  obtain ⟨answer, tests, listed⟩ := bloomTest_toolImage parsed₁.isDomain positive made tested q.qname
  -- the list: what the load read is the file
  obtain ⟨f, read, present, ⟨-, whole⟩, asked, shown⟩ := outcome.of_ok
  have holds : d₁.files f = some list := by
    rw [kept₁.files]
    exact stored f read (by rw [asked]; exact List.mem_singleton_self _)
  have text : read = list := by rw [whole rfl, Device.fileBytes, holds]; rfl
  rw [text] at shown
  have confirms := sdStorageConfirm_listNames bs parsed₂.isDomain nonempty written shown q.qname
  have decision : blocks bs d₂ q.qname = .ok (answer && decide (cstr q.qname ∈ listNames D₂)) :=
    blocks_of_confirm enabled ready₂ tests notAllowlisted (by simpa using confirms)
  rw [tryBlock_of_blocks decision]
  constructor
  · intro d member₁ member₂ name
    have yes := listed (mem_listNames.mpr ⟨d, member₁, name.symm⟩)
    have confirmed : cstr q.qname ∈ listNames D₂ := mem_listNames.mpr ⟨d, member₂, name.symm⟩
    exact ⟨blockReply d₂.nvs.policy buf n q, by simp [yes, confirmed]⟩
  · intro absent
    have unconfirmed : cstr q.qname ∉ listNames D₂ := by
      intro member
      obtain ⟨d, inside, name⟩ := mem_listNames.mp member
      exact absent d inside name.symm
    simp [unconfirmed]

/-- A device that holds the image and the file of the one name `a.b`, and an old file under the earlier name. -/
def oneNameDevice : Device where
  partSize _ := some 64#32
  flash _ := sampleTool 8
  files f := some (if f = .legacy then asciiBytes "a.c\n".toList else asciiBytes "a.b\n".toList)
  seed := []
  statics := { mounted := true }

/-- The question for an address of a name. -/
def questionFor (name : PyStr) : DnsWireQuestion :=
  { txid := 0#16, qtype := dnsTypeA, qclass := 1#16, questionEnd := 0, qname := asciiBytes name }

/-- On that device `a.b` is blocked and `a.c` is let through. -/
theorem one_name_blocked : ∃ d₁ d₂ tr, (deviceSem false).Runs (dnsProxyReloadBloomFilter 0#32) oneNameDevice () d₁ ∧
    (deviceSem false).traced.Runs sdStorageLoadDomainList (d₁, []) .ok (d₂, tr) ∧
    (∃ reply, tryBlock .binary d₂ [] 0 (questionFor "a.b".toList) = .ok (some reply)) ∧
    tryBlock .binary d₂ [] 0 (questionFor "a.c".toList) = .ok none := by
  have loads : (((dnsProxyReloadBloomFilter 0#32).exec (Device.ideal fun _ => .noClient) oneNameDevice).bind fun first =>
      (sdStorageLoadDomainList.exec (Sem.recorded (Device.ideal fun _ => .noClient)) (first.2, [])).map fun second =>
        (first.2.statics.bloomReady, first.2.servedImage == sampleTool 8, second.1, second.2.1.nvs.blockingEnabled,
          second.2.1.statics.allowlistCount, reads second.2.2 == [(.half .a, asciiBytes "a.b\n".toList)])) =
        some (true, true, .ok, true, 0, true) := by
    decide +kernel
  obtain ⟨⟨u, d₁⟩, first, rest⟩ := Option.bind_eq_some_iff.mp loads
  obtain ⟨⟨err, d₂, tr⟩, second, found⟩ := Option.map_eq_some_iff.mp rest
  simp only [Prod.mk.injEq] at found
  obtain ⟨ready, served, rfl, enabled, none_allowed, asked⟩ := found
  have reloaded := Device.runs_ideal false first
  have loaded := Device.runs_recorded_ideal false second
  have parsed : Parsed asciiUnicode {"a.b".toList} := by
    intro d member
    rw [Finset.mem_singleton.mp member]
    refine ⟨"0.0.0.0 a.b".toList, ?_⟩
    rw [parseHostsFormat, List.mem_toFinset]
    decide +kernel
  have made : bloomBin asciiUnicode {"a.b".toList} 8 1 0 = some (sampleTool 8) := by
    rw [bloomBin, sortedDomains, Finset.sort_singleton, Finset.card_singleton]
    decide +kernel
  have written : domainsIdx {"a.b".toList} = some (asciiBytes "a.b\n".toList) := by
    rw [domainsIdx, sortedDomains, Finset.sort_singleton]
    decide +kernel
  have stored (f : DomainFile) (read : List Byte) (one : (f, read) ∈ reads tr) :
      oneNameDevice.files f = some (asciiBytes "a.b\n".toList) := by
    rw [eq_of_beq asked] at one
    cases List.mem_singleton.mp one
    rfl
  have decides (q : DnsWireQuestion) := blocking_is_exact asciiUnicode .binary parsed parsed
    (Finset.singleton_nonempty _) (by decide) made written reloaded ready ((eq_of_beq served).trans (List.append_nil _).symm)
    loaded stored enabled [] 0 (q := q) (by simp [isAllowlisted, none_allowed])
  refine ⟨d₁, d₂, tr, reloaded, loaded, ?_, ?_⟩
  · exact (decides (questionFor "a.b".toList)).1 _ (Finset.mem_singleton_self _) (Finset.mem_singleton_self _)
      (by decide +kernel)
  · refine (decides (questionFor "a.c".toList)).2 fun d member => ?_
    rw [Finset.mem_singleton.mp member]
    decide +kernel

end EspAdblocker.Dns
