import EspAdblocker.Storage.Failure
import EspAdblocker.Web.Config

/-!
# The URL of the blocklist, from the browser to the servers

`config_post_handler` stores a URL of any length that fits a body; the two
readers of the web UI have room for 255 bytes, the periodic task for 299, and
each request for 299 with its suffix. So a URL is used as it was stored exactly
when it is not empty and has at most 255 bytes (`blocklist_url_used_iff`).
-/

namespace EspAdblocker.Web

open EspAdblocker.Lib EspAdblocker.Storage EspAdblocker.Bloom

/-! ## Who starts an update -/

/-- `update_blocklist_post_handler`: the reply, and the URL it gives to
`blocklist_updater_check_and_apply_async`, which copies it. -/
def updateBlocklistPost (nvs : Nvs) (url : List Byte) : Except Fault (Response × Option (List Byte)) := do
  let url := (getStr nvs.blocklistUrl url).2
  if url.getD 0 0#8 = 0#8 then return (.error "blocklist_url is not configured", none)
  else
    let baseUrl ← bufString url
    return (.ok, some baseUrl)

/-- `app_config_get_blocklist_refresh_interval_hours`. -/
def refreshIntervalHours (nvs : Nvs) : BitVec 32 := nvs.refreshHrs.getD 24#32

/-- One turn of `periodic_task`: the URL it updates from, if it does. -/
def periodicTurn (nvs : Nvs) (networkUp : Bool) (url : List Byte) : Except Fault (Option (List Byte)) := do
  if refreshIntervalHours nvs = 0#32 then return none
  else
    let url := (getStr nvs.blocklistUrl url).2
    if url.getD 0 0#8 = 0#8 then return none
    else if networkUp then
      let baseUrl ← bufString url
      return some baseUrl
    else return none

section

variable {nvs : Nvs} {url buf : List Byte}

/-- A string that fits starts the buffer. -/
theorem head_getStr (free : NulFree url) (fits : url.length < buf.length) :
    (getStr (some url) buf).2.getD 0 0#8 = 0#8 ↔ url = [] := by
  unfold getStr
  simp only [if_pos fits]
  cases url with
  | nil => simp
  | cons b url => simpa using free b (List.mem_cons_self ..)

/-- The button starts an update from a URL that fits, unless it is empty. -/
theorem updateBlocklistPost_of_fits (stored : nvs.blocklistUrl = some url) (free : NulFree url)
    (fits : url.length < buf.length) : updateBlocklistPost nvs buf =
      .ok (if url = [] then (.error "blocklist_url is not configured", none) else (.ok, some url)) := by
  unfold updateBlocklistPost
  simp only [stored, head_getStr free fits, bufString_getStr free fits]
  split <;> rfl

/-- So does the periodic task, while it is enabled and the network is up. -/
theorem periodicTurn_of_fits (stored : nvs.blocklistUrl = some url) (free : NulFree url)
    (fits : url.length < buf.length) (networkUp : Bool) : periodicTurn nvs networkUp buf =
      .ok (if refreshIntervalHours nvs = 0#32 ∨ url = [] ∨ networkUp = false then none else some url) := by
  unfold periodicTurn
  simp only [stored, head_getStr free fits, bufString_getStr free fits]
  by_cases disabled : refreshIntervalHours nvs = 0#32
  · simp [disabled, pure, Except.pure]
  · by_cases empty : url = []
    · simp [disabled, empty, pure, Except.pure]
    · cases networkUp <;> simp [disabled, empty, pure, Except.pure, bind, Except.bind]

/-- A URL that does not fit is not what is read. -/
theorem updateBlocklistPost_fits {reply : Response} (stored : nvs.blocklistUrl = some url)
    (started : updateBlocklistPost nvs buf = .ok (reply, some url)) : url.length < buf.length := by
  by_contra long
  unfold updateBlocklistPost at started
  rw [stored] at started
  simp only [getStr_long (Nat.not_lt.mp long)] at started
  split at started
  · cases started
  · cases read : bufString buf with
    | error fault => simp [read, bind, Except.bind] at started
    | ok baseUrl =>
      simp only [read, bind, Except.bind, pure, Except.pure, Except.ok.injEq, Prod.mk.injEq, Option.some.injEq] at started
      rw [started.2] at read
      exact long (bufString_lt read)

end

/-! ## What an update requests -/

/-- The URL of a request. -/
def requestOf : Event → Option (List Byte)
  | ⟨.httpGet url, _⟩ => some url
  | _ => none

/-- The URLs requested, in order. -/
def requested (events : List Event) : List (List Byte) := events.filterMap requestOf

/-- The operation requests nothing. -/
def NoRequest (op : Op) : Prop := ∀ r : Res op, requestOf ⟨op, r⟩ = none

theorem noRequest_of_reloadsBloom {op : Op} (h : ReloadsBloom op) : NoRequest op := by
  cases op <;> first | exact fun _ => rfl | exact h.elim

theorem noRequest_of_loadsList {op : Op} (h : LoadsList op) : NoRequest op := by
  cases op <;> first | exact fun _ => rfl | exact h.elim

section

variable {short : Bool} {α : Type} {d : Device} {p : DeviceM α}

theorem requested_append (first second : List Event) : requested (first ++ second) = requested first ++ requested second :=
  List.filterMap_append

/-- A program that requests nothing. -/
theorem ends_noRequest (only : p.Only NoRequest) (d : Device) :
    (deviceSem short).traced.Ends p (fun _ v => requested v.2 = []) (d, []) := by
  refine (Sem.ends_traced_only only d).mono fun _ v none_made => ?_
  refine List.filterMap_eq_nil_iff.mpr fun e member => ?_
  exact none_made e member e.2

/-- One request, and what follows requests nothing. -/
theorem ends_oneRequest {url : List Byte} {k : Reply → DeviceM α} (only : ∀ reply, (k reply).Only NoRequest) (d : Device) :
    (deviceSem short).traced.Ends (.call (.httpGet url) k) (fun _ v => requested v.2 = [url]) (d, []) := by
  refine Sem.ends_traced_call fun reply d' _ => ((ends_noRequest (only reply) d').mono fun _ v quiet => ?_)
  change url :: requested v.2 = [url]
  rw [quiet]

theorem httpGetToBuffer_requests (url : List Byte) (cap : Nat) (d : Device) :
    (deviceSem short).traced.Ends (httpGetToBuffer url cap) (fun _ v => requested v.2 = [url]) (d, []) := by
  unfold httpGetToBuffer
  simp only [Prog.bind_eq, Prog.perform_bind, Prog.pure_eq]
  refine ends_oneRequest (fun reply => ?_) d
  split
  · trivial
  · trivial
  · split <;> trivial

theorem httpGetToFile_requests (url : List Byte) (f : DomainFile) (d : Device) :
    (deviceSem short).traced.Ends (httpGetToFile url f) (fun _ v => requested v.2 = [url]) (d, []) := by
  unfold httpGetToFile
  simp only [Prog.bind_eq, Prog.perform_bind, Prog.pure_eq]
  refine ends_oneRequest (fun reply => ?_) d
  split
  · trivial
  · trivial
  split
  · refine .call (fun _ => rfl) fun opened => ?_
    split
    · trivial
    · exact (writeBody_only (fun _ _ => rfl) _ _).bind fun _ => .call (fun _ => rfl) fun _ => trivial
  · trivial

/-- Requests, then a program that makes none. -/
theorem ends_requests_bind {β : Type} {f : α → DeviceM β} {urls : List (List Byte)}
    (first : (deviceSem short).traced.Ends p (fun _ v => requested v.2 = urls) (d, []))
    (only : ∀ a, (f a).Only NoRequest) :
    (deviceSem short).traced.Ends (p.bind f) (fun _ v => requested v.2 = urls) (d, []) := by
  refine Sem.ends_traced_bind (first.mono fun a v asked => (ends_noRequest (only a) v.1).mono fun _ w quiet => ?_)
  rw [requested_append, asked, quiet, List.append_nil]

theorem installBloom_noRequest (seedLen : BitVec 32) (target : BitVec 8) (buf : Nat) (image : List Byte) :
    (installBloom seedLen target buf image).Only NoRequest := by
  have reload : (dnsProxyReloadBloomFilter seedLen).Only NoRequest :=
    (dnsProxyReloadBloomFilter_reloads seedLen).mono fun _ => noRequest_of_reloadsBloom
  unfold installBloom activateBloom
  simp only [Prog.bind_eq, Prog.perform_bind, Prog.pure_eq]
  split
  · exact .call (fun _ => rfl) fun _ => trivial
  · refine (computeCrc_only _ fun _ => rfl).bind fun crc => ?_
    split
    · refine (flashImage_only (fun _ => rfl) fun _ => rfl).bind fun err => .call (fun _ => rfl) fun _ => ?_
      split
      · refine .call (fun _ => rfl) fun err => ?_
        split
        · exact reload.bind fun _ => trivial
        · trivial
      · trivial
    · exact .call (fun _ => rfl) fun _ => trivial

theorem checkDomainList_noRequest (sha : Sha256) (target : BitVec 8) (shaResp : List Byte) :
    (checkDomainList sha target shaResp).Only NoRequest := by
  have load : sdStorageLoadDomainList.Only NoRequest := sdStorageLoadDomainList_loads.mono fun _ => noRequest_of_loadsList
  have hashes : (sha256File sha (.half (halfOf target))).Only NoRequest := by
    unfold sha256File
    simp only [Prog.bind_eq, Prog.perform_bind, Prog.pure_eq]
    refine .call (fun _ => rfl) fun opened => ?_
    split
    · trivial
    · exact .call (fun _ => rfl) fun _ => trivial
  unfold checkDomainList activateDomainList
  simp only [Prog.bind_eq, Prog.perform_bind, Prog.pure_eq]
  refine hashes.bind fun digest => ?_
  split
  · exact .call (fun _ => rfl) fun _ => trivial
  split
  · exact .call (fun _ => rfl) fun _ => trivial
  · refine .call (fun _ => rfl) fun err => ?_
    split
    · exact load
    · trivial

/-- `update_bloom` requests the image, or nothing. -/
theorem updateBloom_requests (seedLen : BitVec 32) (baseUrl : List Byte) (d : Device) :
    (deviceSem short).traced.Ends (updateBloom seedLen baseUrl)
      (fun _ v => (requested v.2).Sublist [urlOf baseUrl "/bloom.bin"]) (d, []) := by
  unfold updateBloom
  simp only [Prog.bind_eq, Prog.perform_bind, Prog.pure_eq]
  refine Sem.ends_traced_call fun active d₁ _ => Sem.ends_traced_call fun size d₂ _ => ?_
  split
  · exact Sem.ends_ret (List.nil_sublist _)
  refine Sem.ends_traced_call fun buf d₃ _ => ?_
  split
  · exact Sem.ends_ret (List.nil_sublist _)
  refine (ends_requests_bind (httpGetToBuffer_requests _ _ d₃) fun got => ?_).mono fun _ v asked => ?_
  · split
    · exact .call (fun _ => rfl) fun _ => trivial
    · exact installBloom_noRequest _ _ _ _
  · change (requested v.2).Sublist _
    rw [asked]

/-- `update_domain_list` requests the list and then its digest, or breaks off before. -/
theorem updateDomainList_requests (sha : Sha256) (baseUrl : List Byte) (d : Device) :
    (deviceSem short).traced.Ends (updateDomainList sha baseUrl) (fun _ v =>
      (requested v.2).Sublist [urlOf baseUrl "/domains.idx", urlOf baseUrl "/domains.idx.sha256"]) (d, []) := by
  unfold updateDomainList
  simp only [Prog.bind_eq, Prog.perform_bind, Prog.pure_eq]
  refine Sem.ends_traced_call fun s d₁ _ => ?_
  split
  · refine Sem.ends_traced_call fun active d₂ _ => ?_
    refine Sem.ends_traced_bind ((httpGetToFile_requests _ _ d₂).mono fun len v asked => ?_)
    have so_far (w : List Event) : requested (⟨.readStatics, s⟩ :: ⟨.getListSlot, active⟩ :: (v.2 ++ w)) =
        urlOf baseUrl "/domains.idx" :: requested w := by
      change requested (v.2 ++ w) = _
      rw [requested_append, asked]
      rfl
    split
    · apply Sem.ends_ret
      rw [so_far]
      exact (List.nil_sublist _).cons_cons _
    · refine (ends_requests_bind (httpGetToBuffer_requests _ _ v.1) fun got => ?_).mono fun _ w asked' => ?_
      · split
        · exact .call (fun _ => rfl) fun _ => trivial
        · exact checkDomainList_noRequest _ _ _
      · rw [so_far, asked']
  · exact Sem.ends_ret (List.nil_sublist _)

/-- **An update requests at most the three artifacts**, in this order. -/
theorem update_requests (sha : Sha256) (seedLen : BitVec 32) (baseUrl : List Byte) (d : Device) :
    (deviceSem short).traced.Ends (blocklistUpdaterCheckAndApply sha seedLen baseUrl) (fun _ v =>
      (requested v.2).Sublist [urlOf baseUrl "/bloom.bin", urlOf baseUrl "/domains.idx",
        urlOf baseUrl "/domains.idx.sha256"]) (d, []) := by
  unfold blocklistUpdaterCheckAndApply
  simp only [Prog.bind_eq, Prog.pure_eq]
  refine Sem.ends_traced_bind ((updateBloom_requests seedLen baseUrl d).mono fun bloomErr v asked => ?_)
  refine Sem.ends_traced_bind ((updateDomainList_requests sha baseUrl v.1).mono fun listErr w asked' => ?_)
  have both := asked.append asked'
  rw [← requested_append] at both
  split <;> exact Sem.ends_ret (by simpa using both)

end

/-- The artifacts below a URL. -/
def artifacts (url : List Byte) : List (List Byte) :=
  [url ++ textBytes "/bloom.bin", url ++ textBytes "/domains.idx", url ++ textBytes "/domains.idx.sha256"]

/-- A request is for the artifact itself when that fits `MAX_URL_LEN`. -/
theorem urlOf_of_fits {url : List Byte} {suffix : String} (free : NulFree url)
    (fits : url.length + (textBytes suffix).length < maxUrlLen) : urlOf url suffix = url ++ textBytes suffix := by
  unfold urlOf
  rw [cstr_eq_self free, List.take_of_length_le]
  rw [List.length_append]
  omega

/-- A device that has both partitions and a card. -/
def servedDevice : Device where
  partSize _ := some 64#32
  flash _ := []
  files _ := none
  seed := []
  statics := { mounted := true }

theorem servedDevice_requests (sha : Sha256) (seedLen : BitVec 32) (baseUrl : List Byte) :
    ∃ err v, (deviceSem false).traced.Runs (blocklistUpdaterCheckAndApply sha seedLen baseUrl) (servedDevice, []) err v ∧
      requested v.2 = [urlOf baseUrl "/bloom.bin", urlOf baseUrl "/domains.idx", urlOf baseUrl "/domains.idx.sha256"] := by
  have computed : ((blocklistUpdaterCheckAndApply sha seedLen baseUrl).exec
      (Sem.recorded (Device.ideal fun _ => .response 200 [[1#8]])) (servedDevice, [])).map
        (fun done => requested done.2.2) =
      some [urlOf baseUrl "/bloom.bin", urlOf baseUrl "/domains.idx", urlOf baseUrl "/domains.idx.sha256"] := by
    rfl
  obtain ⟨⟨err, v⟩, run, asked⟩ := Option.map_eq_some_iff.mp computed
  exact ⟨err, v, Device.runs_recorded_ideal false run, asked⟩

/-! ## The URL that was saved -/

/-- Updates from a URL request the artifacts below it and nothing else. -/
structure Requests (sha : Sha256) (seedLen : BitVec 32) (url : List Byte) : Prop where
  only : ∀ short d err v, (deviceSem short).traced.Runs (blocklistUpdaterCheckAndApply sha seedLen url) (d, []) err v →
    (requested v.2).Sublist (artifacts url)
  all : ∃ short d err v, (deviceSem short).traced.Runs (blocklistUpdaterCheckAndApply sha seedLen url) (d, []) err v ∧
    requested v.2 = artifacts url

/-- The browser is shown the URL, the button and the periodic task update from it, and
updates request the artifacts below it, whatever the buffers held before. -/
structure UsedAsStored (ips : IpText) (sha : Sha256) (seedLen : BitVec 32) (nvs : Nvs) (url : List Byte) : Prop where
  shown : ∀ urlBuf : List Byte, urlBuf.length = maxUrlFieldLen →
    ∃ object, configGet ips nvs urlBuf = .ok object ∧ object.lookup "blocklist_url" = some (.string url)
  manual : ∀ buf : List Byte, buf.length = maxUrlFieldLen → updateBlocklistPost nvs buf = .ok (.ok, some url)
  periodic : ∀ (networkUp : Bool) (buf : List Byte), buf.length = maxUrlLen → periodicTurn nvs networkUp buf =
    .ok (if refreshIntervalHours nvs = 0#32 ∨ networkUp = false then none else some url)
  requests : Requests sha seedLen url

theorem requests_of_fits (sha : Sha256) (seedLen : BitVec 32) {url : List Byte} (free : NulFree url)
    (fits : url.length < maxUrlFieldLen) : Requests sha seedLen url := by
  have room : url.length < 256 := fits
  have bloom : urlOf url "/bloom.bin" = url ++ textBytes "/bloom.bin" :=
    urlOf_of_fits free (Nat.lt_of_lt_of_le (Nat.add_lt_add_right room _) (by decide))
  have list : urlOf url "/domains.idx" = url ++ textBytes "/domains.idx" :=
    urlOf_of_fits free (Nat.lt_of_lt_of_le (Nat.add_lt_add_right room _) (by decide))
  have digest : urlOf url "/domains.idx.sha256" = url ++ textBytes "/domains.idx.sha256" :=
    urlOf_of_fits free (Nat.lt_of_lt_of_le (Nat.add_lt_add_right room _) (by decide))
  constructor
  · intro short d err v run
    have asked := update_requests sha seedLen url d err v run
    rwa [bloom, list, digest] at asked
  · obtain ⟨err, v, run, asked⟩ := servedDevice_requests sha seedLen url
    rw [bloom, list, digest] at asked
    exact ⟨false, servedDevice, err, v, run, asked⟩

/-- What a body that was accepted stores. -/
theorem configPost_stores {json : CJsonValues} {ips : IpText} {accepts : String → Bool} {nvs nvs' : Nvs}
    {received : Option (List Byte)} {body url : List Byte} {upstreamChanged rebootRequired : Bool}
    (taken : accepts "blocklist_url" = true)
    (posted : configPost json ips accepts nvs received = (.saved upstreamChanged rebootRequired, nvs'))
    (sent : readBody maxPostBodyLen received = some body) (given : json.item (cstr body) "blocklist_url" = some url) :
    nvs'.blocklistUrl = some url := by
  have short : url.length < nvsStrMax := by
    have value := json.item_length given
    have text : (cstr body).length ≤ body.length := (List.takeWhile_prefix _).length_le
    have room : body.length < 1024 := (readBody_eq_some sent).2
    change url.length < 4000
    omega
  unfold configPost at posted
  rw [sent] at posted
  dsimp only at posted
  split at posted
  · cases posted
  · have saved := congrArg Prod.snd posted
    dsimp only at saved
    rw [← saved, saveConfig_blocklistUrl, given, Option.elim_some, if_pos taken, setStr, if_pos short]

/-- **A URL that was saved is used as it was stored** exactly when it is not empty
and fits the 256 bytes of the web UI's readers with its terminator, given that NVS
takes a URL that is not too long for it. -/
theorem blocklist_url_used_iff (sha : Sha256) (seedLen : BitVec 32) {json : CJsonValues} {ips : IpText}
    {accepts : String → Bool} {nvs nvs' : Nvs} {received : Option (List Byte)} {body url : List Byte}
    {upstreamChanged rebootRequired : Bool} (taken : accepts "blocklist_url" = true)
    (posted : configPost json ips accepts nvs received = (.saved upstreamChanged rebootRequired, nvs'))
    (sent : readBody maxPostBodyLen received = some body) (given : json.item (cstr body) "blocklist_url" = some url) :
    (∀ later : Nvs, later.blocklistUrl = nvs'.blocklistUrl → UsedAsStored ips sha seedLen later url) ↔
      1 ≤ url.length ∧ url.length ≤ 255 := by
  have stored := configPost_stores taken posted sent given
  have free := json.item_free given
  constructor
  · intro used
    have started := (used nvs' rfl).manual (List.replicate maxUrlFieldLen 0#8) List.length_replicate
    have fits := updateBlocklistPost_fits stored started
    rw [List.length_replicate] at fits
    refine ⟨Nat.pos_of_ne_zero fun empty => ?_, Nat.le_of_lt_succ fits⟩
    rw [updateBlocklistPost_of_fits stored free (by rwa [List.length_replicate]),
      if_pos (List.eq_nil_of_length_eq_zero empty)] at started
    cases started
  · rintro ⟨some_byte, short⟩ later same
    have stored' : later.blocklistUrl = some url := same.trans stored
    have not_empty : url ≠ [] := List.ne_nil_of_length_pos some_byte
    constructor
    · intro urlBuf size
      apply (configGet_shows_iff stored' free).mpr
      rw [size]
      exact Nat.lt_succ_of_le short
    · intro buf size
      have fits : url.length < buf.length := by
        rw [size]
        exact Nat.lt_succ_of_le short
      rw [updateBlocklistPost_of_fits stored' free fits, if_neg not_empty]
    · intro networkUp buf size
      have fits : url.length < buf.length := by
        have room : buf.length = 300 := size
        omega
      rw [periodicTurn_of_fits stored' free fits]
      simp only [not_empty, false_or]
    · exact requests_of_fits sha seedLen free (Nat.lt_succ_of_le short)

/-! ## Two URLs -/

/-- A body with a URL. -/
def urlBody (url : List Byte) : List Byte := textBytes "\x7b\"blocklist_url\":\"" ++ url ++ textBytes "\"\x7d"

/-- cJSON, on that body. -/
def urlJson (url : List Byte) (free : NulFree url) : CJsonValues where
  parse body := body == urlBody url
  item body key := if body = urlBody url ∧ key = "blocklist_url" then some url else none
  item_free found := by
    split at found
    · cases found
      exact free
    · cases found
  item_length found := by
    split at found
    · rename_i sent
      cases found
      rw [sent.1, urlBody, List.length_append, List.length_append]
      have opening : 0 < (textBytes "\x7b\"blocklist_url\":\"").length := by decide
      omega
    · cases found
  valueint _ _ := none
  valueUint32 _ _ := none
  isTrue _ _ := none

/-- Any conversion of addresses will do. -/
def sampleIps : IpText := ⟨fun _ => 0#32, fun _ => []⟩

/-- Posting a URL. -/
theorem post_url {url : List Byte} (free : NulFree url) (fits : (urlBody url).length < maxPostBodyLen) :
    ∃ nvs', configPost (urlJson url free) sampleIps (fun _ => true) {} (some (urlBody url)) = (.saved false false, nvs') ∧
      readBody maxPostBodyLen (some (urlBody url)) = some (urlBody url) ∧
      (urlJson url free).item (cstr (urlBody url)) "blocklist_url" = some url := by
  have bounds : NulFree (textBytes "\x7b\"blocklist_url\":\"") ∧ NulFree (textBytes "\"\x7d") := by
    decide
  have text : NulFree (urlBody url) := by
    intro b member
    rw [urlBody, List.mem_append, List.mem_append] at member
    rcases member with (opening | inner) | closing
    · exact bounds.1 b opening
    · exact free b inner
    · exact bounds.2 b closing
  have some_byte : (urlBody url).length ≠ 0 := by
    rw [urlBody, List.length_append, List.length_append]
    have opening : 0 < (textBytes "\x7b\"blocklist_url\":\"").length := by decide
    omega
  have read : readBody maxPostBodyLen (some (urlBody url)) = some (urlBody url) := by
    unfold readBody
    exact if_neg (by omega)
  refine ⟨saveConfig (urlJson url free) sampleIps (fun _ => true) (urlBody url) {}, ?_, read, ?_⟩
  · unfold configPost
    rw [read]
    simp only [cstr_eq_self text]
    rw [if_neg (by simp [urlJson])]
    simp [urlJson, staticIpItem]
  · rw [cstr_eq_self text]
    simp [urlJson]

/-- A short URL is used as it was stored. -/
theorem short_url_used : ∃ nvs' free, configPost (urlJson (textBytes "http://h") free) sampleIps (fun _ => true) {}
    (some (urlBody (textBytes "http://h"))) = (.saved false false, nvs') ∧
      ∀ later : Nvs, later.blocklistUrl = nvs'.blocklistUrl →
        UsedAsStored sampleIps sampleSha 0#32 later (textBytes "http://h") := by
  have free : NulFree (textBytes "http://h") := by decide
  obtain ⟨nvs', posted, sent, given⟩ := post_url free (by decide)
  exact ⟨nvs', free, posted, (blocklist_url_used_iff sampleSha 0#32 rfl posted sent given).mpr (by decide)⟩

/-- A URL of 256 bytes. -/
def longUrl : List Byte := List.replicate 256 0x61#8

/-- It is accepted, and then neither shown nor updated from. -/
theorem long_url_not_used : ∃ nvs' free, configPost (urlJson longUrl free) sampleIps (fun _ => true) {}
    (some (urlBody longUrl)) = (.saved false false, nvs') ∧
      ¬ ∀ later : Nvs, later.blocklistUrl = nvs'.blocklistUrl → UsedAsStored sampleIps sampleSha 0#32 later longUrl := by
  have free : NulFree longUrl := by
    intro b member
    rw [List.eq_of_mem_replicate member]
    decide
  have fits : (urlBody longUrl).length < maxPostBodyLen := by
    have frame : (textBytes "\x7b\"blocklist_url\":\"").length = 18 ∧ (textBytes "\"\x7d").length = 2 := by decide
    rw [urlBody, List.length_append, List.length_append, frame.1, frame.2, longUrl, List.length_replicate]
    decide
  obtain ⟨nvs', posted, sent, given⟩ := post_url free fits
  refine ⟨nvs', free, posted, fun used => ?_⟩
  have stored := configPost_stores rfl posted sent given
  obtain ⟨object, got, shows⟩ := (used nvs' rfl).shown (List.replicate maxUrlFieldLen 0#8) List.length_replicate
  have room := (configGet_shows_iff stored free).mp ⟨object, got, shows⟩
  rw [longUrl, List.length_replicate, List.length_replicate] at room
  exact absurd room (by decide)

end EspAdblocker.Web
