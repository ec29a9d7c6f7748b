import EspAdblocker.Dns.Restart

/-!
# Files of different publications

An update installs the filter and then the list. When it fails or loses its power
in between, the filter of one publication is left beside the list of another. On
any life on which nothing but publications is fetched, the device stores the
filter of some publication and the list of some publication
(`exists_stores_of_life`), and what it blocks lies between the names of both and
the names of the list (`blocked_between_publications`).
-/

namespace EspAdblocker.Dns

open EspAdblocker.Lib EspAdblocker.Bloom EspAdblocker.Tools EspAdblocker.Storage

/-- A run of the tool that published. -/
structure Publication (U : PyUnicode) (sha : Sha256) where
  formulas : Formulas
  now : Nat
  sources : List PyStr
  allowlistText : Option PyStr
  artifacts : Artifacts
  built : main U sha formulas now sources allowlistText = some artifacts
  fits : artifacts.bloomBin.length < 2 ^ 32

section

variable {U : PyUnicode} {sha : Sha256} {seedLen : BitVec 32} {pubs : Set (Publication U sha)} {d₀ d' : Device}
  {w : Device × List Event}

namespace Publication

/-- The publication lists the name. -/
def Lists (P : Publication U sha) (name : List Byte) : Prop := Listed U P.sources P.allowlistText name

theorem publishes (P : Publication U sha) : Publishes U sha (allDomains U P.sources P.allowlistText) P.artifacts :=
  main_eq_some P.built

theorem lists_iff {P : Publication U sha} {name : List Byte} :
    P.Lists name ↔ ∃ e ∈ allDomains U P.sources P.allowlistText, asciiBytes e = name := by
  simp only [Lists, Listed, mem_allDomains, and_comm]

/-- A part of the image of a publication that passes the checks is all of it. -/
theorem bloomBin_eq (P : Publication U sha) {image : List Byte} {f : BloomFilter} (start : image <+: P.artifacts.bloomBin)
    (checks : PassesChecks image f) : image = P.artifacts.bloomBin := by
  obtain ⟨mBits, kHashes, now, -, made⟩ := P.publishes.bloom
  exact eq_of_passesChecks made P.fits start checks

end Publication

/-- What was fetched for a filter or for a digest is that of a publication, or the beginning of it. -/
structure FetchedFrom (pubs : Set (Publication U sha)) (tr : List Event) : Prop where
  bloom : ∀ baseUrl chunks, (⟨.httpGet (urlOf baseUrl "/bloom.bin"), .response 200 chunks⟩ : Event) ∈ tr →
    ∃ P ∈ pubs, bodyOf chunks <+: P.artifacts.bloomBin
  sha : ∀ baseUrl chunks, (⟨.httpGet (urlOf baseUrl "/domains.idx.sha256"), .response 200 chunks⟩ : Event) ∈ tr →
    ∃ P ∈ pubs, bodyOf chunks <+: P.artifacts.sha256

/-- The stored list has the digest of a published one only if it is that one. -/
def NoStoredCollision (pubs : Set (Publication U sha)) (d : Device) : Prop :=
  ∀ P ∈ pubs, ∀ content, d.files d.activeFile = some content → sha.run content = sha.run P.artifacts.domainsIdx →
    content = P.artifacts.domainsIdx

theorem exists_filter {A₀ : Publication U sha} (published : A₀ ∈ pubs)
    (first : ∃ rest, d₀.flash d₀.activePartition = A₀.artifacts.bloomBin ++ rest) (fetched : FetchedFrom pubs w.2)
    (origin : BloomOrigin d₀ w) : ∃ A ∈ pubs, ∃ rest, w.1.flash w.1.activePartition = A.artifacts.bloomBin ++ rest := by
  cases origin with
  | kept _ flash =>
    rw [flash]
    exact ⟨A₀, published, first⟩
  | checked switched =>
    obtain ⟨chunks, size, f, rest, got, -, checks, stored⟩ := switched
    obtain ⟨A, member, start⟩ := fetched.bloom _ chunks got
    have whole := A.bloomBin_eq ((List.take_prefix ..).trans start) checks
    exact ⟨A, member, rest, by rw [← whole, stored]⟩

theorem exists_list {B₀ : Publication U sha} (published : B₀ ∈ pubs)
    (first : d₀.files d₀.activeFile = some B₀.artifacts.domainsIdx) (fetched : FetchedFrom pubs w.2)
    (collisionFree : NoStoredCollision pubs w.1) (origin : ListOrigin false sha d₀ w) :
    ∃ B ∈ pubs, w.1.files w.1.activeFile = some B.artifacts.domainsIdx := by
  cases origin with
  | kept _ files =>
    rw [files]
    exact ⟨B₀, published, first⟩
  | @checked _ content read _ stored got digest_of digest =>
    obtain rfl : read = content := got.2 rfl
    obtain ⟨chunks, event, rfl⟩ := digest_of
    obtain ⟨B, member, start⟩ := fetched.sha _ chunks event
    have sent : readBody 127 [] chunks <+: hexEncodeLower (sha.run B.artifacts.domainsIdx) ++ [10#8] := by
      rw [readBody_eq, ← B.publishes.sha]
      exact (List.take_prefix ..).trans start
    have same := collisionFree B member read stored (eq_of_digest sent digest)
    exact ⟨B, member, by rw [stored, same]⟩

/-- **At every point of a life the device stores files of publications**, if it did at first. -/
theorem exists_stores_of_life {A₀ B₀ : Publication U sha} (life : Life false sha seedLen d₀ w) (published : A₀ ∈ pubs)
    (published' : B₀ ∈ pubs) (first : Stores A₀.artifacts B₀.artifacts d₀) (fetched : FetchedFrom pubs w.2)
    (collisionFree : NoStoredCollision pubs w.1) : ∃ A ∈ pubs, ∃ B ∈ pubs, Stores A.artifacts B.artifacts w.1 := by
  have list : ListOrigin false sha d₀ w := life.invariant (listOrigin_kept d₀) (.kept rfl rfl)
  obtain ⟨A, member, flashed⟩ := exists_filter published first.flashed fetched (bloomLasts life).origin
  obtain ⟨B, member', listed⟩ := exists_list published' first.listed fetched collisionFree list
  exact ⟨A, member, B, member', flashed, listed⟩

end

/-! ## Half an update -/

/-- What the tool makes of `c.d`, with the hash that knows only the list of `a.b`. -/
def otherArtifacts : Artifacts where
  bloomBin := (toolImage asciiUnicode ["c.d".toList] 15 10 1 0).getD []
  domainsIdx := asciiBytes "c.d\n".toList
  sha256 := textBytes "0000000000000000000000000000000000000000000000000000000000000000\n"

theorem bloomBin_oneName_lt : oneNameArtifacts.bloomBin.length < 2 ^ 32 := by
  decide +kernel

/-- The publication of `a.b`. -/
def firstPublication : Publication asciiUnicode oneNameSha where
  formulas := ⟨fun _ => 15, fun _ => 10⟩
  now := 0
  sources := twoNameSources
  allowlistText := oneNameAllowlist
  artifacts := oneNameArtifacts
  built := main_oneName
  fits := bloomBin_oneName_lt

theorem allDomains_other : allDomains asciiUnicode ["0.0.0.0 c.d".toList] none = {"c.d".toList} := by
  decide +kernel

theorem main_other : main asciiUnicode oneNameSha ⟨fun _ => 15, fun _ => 10⟩ 0 ["0.0.0.0 c.d".toList] none =
    some otherArtifacts := by
  simp only [main, allDomains_other, bloomBin, domainsIdx, sortedDomains, Finset.sort_singleton, Finset.card_singleton]
  decide +kernel

theorem bloomBin_other_lt : otherArtifacts.bloomBin.length < 2 ^ 32 := by
  decide +kernel

/-- The publication of `c.d`. -/
def otherPublication : Publication asciiUnicode oneNameSha where
  formulas := ⟨fun _ => 15, fun _ => 10⟩
  now := 0
  sources := ["0.0.0.0 c.d".toList]
  allowlistText := none
  artifacts := otherArtifacts
  built := main_other
  fits := bloomBin_other_lt

/-- A server that has lost the list and its digest. -/
def halfServer (url : List Byte) : Reply :=
  if url = textBytes "/bloom.bin" then .response 200 [otherArtifacts.bloomBin] else .response 404 []

/-- Nothing else was answered with success. -/
def fromHalfServer : Event → Bool
  | ⟨.httpGet url, .response status chunks⟩ =>
    status != 200 || (url == textBytes "/bloom.bin" && bodyOf chunks == otherArtifacts.bloomBin)
  | _ => true

theorem fetchedFrom_of_fromHalfServer {tr : List Event} (sent : tr.all fromHalfServer = true) :
    FetchedFrom {firstPublication, otherPublication} tr := by
  have checked {url : List Byte} {chunks : List (List Byte)} (event : (⟨.httpGet url, .response 200 chunks⟩ : Event) ∈ tr) :
      url = textBytes "/bloom.bin" ∧ bodyOf chunks = otherArtifacts.bloomBin := by
    simpa [fromHalfServer] using List.all_eq_true.mp sent _ event
  refine ⟨fun baseUrl chunks event => ⟨otherPublication, by simp, ?_⟩, fun baseUrl chunks event => ?_⟩
  · rw [(checked event).2]
    exact List.prefix_refl _
  · -- no URL of a digest is that short
    have short := congrArg List.length (checked event).1
    rw [urlOf, List.length_take, List.length_append, show (textBytes "/domains.idx.sha256").length = 19 from rfl,
      show (textBytes "/bloom.bin").length = 10 from rfl, maxUrlLen] at short
    omega

end EspAdblocker.Dns
