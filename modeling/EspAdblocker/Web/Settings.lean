import EspAdblocker.Web.BlocklistUrl

/-!
# The settings page

What a browser has posted is what it is shown. Each request changes the fields it
holds, each cut to the type of its key, and leaves the others; a request that is
rejected changes nothing. The page shows the result of all requests so far exactly
when both URLs fit the buffer they share (`settings_shown`).
-/

namespace EspAdblocker.Web

open EspAdblocker.Lib EspAdblocker.Storage

/-- The settings that `app_config.c` reads for the page, with the defaults of a device
that was never configured. -/
structure Settings where
  netMode : BitVec 8 := 0#8
  staticIp : Option IpInfo := none
  upstream1 : BitVec 32 := 0x01010101#32
  upstream2 : BitVec 32 := 0x08080808#32
  blockPolicy : BitVec 8 := 0#8
  blockingEnabled : Bool := true
  blocklistUrl : List Byte := []
  refreshIntervalHours : BitVec 32 := 24#32
  fwUpdateUrl : List Byte := []
  deriving DecidableEq, Repr

/-- The fields a request sets. -/
structure Posted where
  netMode : Option (BitVec 8) := none
  staticIp : Option IpInfo := none
  upstream1 : Option (BitVec 32) := none
  upstream2 : Option (BitVec 32) := none
  blockPolicy : Option (BitVec 8) := none
  blockingEnabled : Option Bool := none
  blocklistUrl : Option (List Byte) := none
  refreshIntervalHours : Option (BitVec 32) := none
  fwUpdateUrl : Option (List Byte) := none
  deriving DecidableEq, Repr

/-- The settings after a request. -/
def Settings.after (s : Settings) (p : Posted) : Settings where
  netMode := p.netMode.getD s.netMode
  staticIp := p.staticIp <|> s.staticIp
  upstream1 := p.upstream1.getD s.upstream1
  upstream2 := p.upstream2.getD s.upstream2
  blockPolicy := p.blockPolicy.getD s.blockPolicy
  blockingEnabled := p.blockingEnabled.getD s.blockingEnabled
  blocklistUrl := p.blocklistUrl.getD s.blocklistUrl
  refreshIntervalHours := p.refreshIntervalHours.getD s.refreshIntervalHours
  fwUpdateUrl := p.fwUpdateUrl.getD s.fwUpdateUrl

/-- The page. -/
def Settings.page (ips : IpText) (s : Settings) : List (String × JsonValue) :=
  [("net_mode", .number s.netMode.toNat)] ++ staticIpFields ips s.staticIp ++
    [("upstream1", .string (ips.ntoa s.upstream1)), ("upstream2", .string (ips.ntoa s.upstream2)),
      ("block_policy", .number s.blockPolicy.toNat), ("blocking_enabled", .bool s.blockingEnabled),
      ("blocklist_url", .string s.blocklistUrl),
      ("blocklist_refresh_interval_hours", .number s.refreshIntervalHours.toNat), ("fw_update_url", .string s.fwUpdateUrl)]

/-- What is stored, as settings. -/
def settings (nvs : Nvs) : Settings where
  netMode := nvs.netMode.getD 0#8
  staticIp := nvs.staticIp
  upstream1 := nvs.upstream1.getD 0x01010101#32
  upstream2 := nvs.upstream2.getD 0x08080808#32
  blockPolicy := nvs.policy
  blockingEnabled := nvs.blockingEnabled
  blocklistUrl := nvs.blocklistUrl.getD []
  refreshIntervalHours := nvs.refreshHrs.getD 24#32
  fwUpdateUrl := nvs.fwUrl.getD []

/-- An item, if NVS takes its key. -/
def taken {α : Type} (accepts : String → Bool) (key : String) (item : Option α) : Option α :=
  if accepts key then item else none

/-- The fields of a body that NVS takes. -/
def postedFields (json : CJsonValues) (ips : IpText) (accepts : String → Bool) (body : List Byte) : Posted where
  netMode := (taken accepts "net_mode" (json.valueint body "net_mode")).map (BitVec.ofInt 8)
  staticIp := taken accepts "static_ip" (staticIpItem json ips body)
  upstream1 := (taken accepts "upstream1" (json.item body "upstream1")).map ips.aton
  upstream2 := (taken accepts "upstream2" (json.item body "upstream2")).map ips.aton
  blockPolicy := (taken accepts "block_policy" (json.valueint body "block_policy")).map (BitVec.ofInt 8)
  blockingEnabled := taken accepts "block_en" (json.isTrue body "blocking_enabled")
  blocklistUrl := taken accepts "blocklist_url" (json.item body "blocklist_url")
  refreshIntervalHours := taken accepts "refresh_hrs" (json.valueUint32 body "blocklist_refresh_interval_hours")
  fwUpdateUrl := taken accepts "fw_url" (json.item body "fw_update_url")

/-- A POST: which keys NVS takes, and the body received. -/
abbrev ConfigRequest := (String → Bool) × Option (List Byte)

/-- The fields of a request: none, if it is rejected. -/
def postedBy (json : CJsonValues) (ips : IpText) (request : ConfigRequest) : Posted :=
  match readBody maxPostBodyLen request.2 with
  | none => {}
  | some buf => if json.parse (cstr buf) = false then {} else postedFields json ips request.1 (cstr buf)

/-- The settings after some requests: each field has the value of the last request that set it. -/
def Settings.afterAll (json : CJsonValues) (ips : IpText) (requests : List ConfigRequest) (s : Settings) : Settings :=
  requests.foldl (fun s request => s.after (postedBy json ips request)) s

/-- What is stored after some requests. -/
def configPosts (json : CJsonValues) (ips : IpText) (nvs : Nvs) (requests : List ConfigRequest) : Nvs :=
  requests.foldl (fun nvs request => (configPost json ips request.1 nvs request.2).2) nvs

section

variable {json : CJsonValues} {ips : IpText} {accepts : String → Bool} {body : List Byte}

theorem length_item_lt {buf value : List Byte} {key : String} (fits : buf.length < maxPostBodyLen)
    (found : json.item (cstr buf) key = some value) : value.length < nvsStrMax := by
  have inner := json.item_length found
  have text : (cstr buf).length ≤ buf.length := (List.takeWhile_prefix _).length_le
  have room : buf.length < 1024 := fits
  change value.length < 4000
  omega

theorem Settings.after_nothing (s : Settings) : s.after {} = s := by
  cases s
  simp [Settings.after]

/-- A setter that is called for one field changes this field, when NVS takes its key. -/
theorem settings_setItem {α : Type} {item : Option α} {key : String} {store : α → Nvs → Nvs} {nvs : Nvs}
    (field : Option α → Posted) (nothing : field none = {})
    (stored : ∀ value, item = some value → settings (store value nvs) = (settings nvs).after (field (some value))) :
    settings (setItem item (fun value => setKey accepts key (store value)) nvs) =
      (settings nvs).after (field (taken accepts key item)) := by
  cases item with
  | none => rw [taken, ite_self, nothing, Settings.after_nothing, setItem]
  | some value =>
    rw [setItem, setKey, taken]
    split
    · exact stored value rfl
    · rw [nothing, Settings.after_nothing]

/-- **The setters of a request**, field by field. -/
theorem settings_saveConfig (nvs : Nvs) (urls : ∀ key value, json.item body key = some value → value.length < nvsStrMax) :
    settings (saveConfig json ips accepts body nvs) = (settings nvs).after (postedFields json ips accepts body) := by
  have upstream1 (nvs : Nvs) : settings (setItem (json.item body "upstream1")
      (fun s => appConfigSetUpstream1 accepts (ips.aton s)) nvs) =
      (settings nvs).after { upstream1 := (taken accepts "upstream1" (json.item body "upstream1")).map ips.aton } :=
    settings_setItem (fun o => { upstream1 := o.map ips.aton }) rfl fun _ _ => rfl
  have upstream2 (nvs : Nvs) : settings (setItem (json.item body "upstream2")
      (fun s => appConfigSetUpstream2 accepts (ips.aton s)) nvs) =
      (settings nvs).after { upstream2 := (taken accepts "upstream2" (json.item body "upstream2")).map ips.aton } :=
    settings_setItem (fun o => { upstream2 := o.map ips.aton }) rfl fun _ _ => rfl
  have policy (nvs : Nvs) : settings (setItem (json.valueint body "block_policy") (appConfigSetBlockPolicy accepts) nvs) =
      (settings nvs).after
        { blockPolicy := (taken accepts "block_policy" (json.valueint body "block_policy")).map (BitVec.ofInt 8) } :=
    settings_setItem (fun o => { blockPolicy := o.map (BitVec.ofInt 8) }) rfl fun _ _ => rfl
  have enabled (nvs : Nvs) : settings (setItem (json.isTrue body "blocking_enabled")
      (appConfigSetBlockingEnabled accepts) nvs) =
      (settings nvs).after { blockingEnabled := taken accepts "block_en" (json.isTrue body "blocking_enabled") } :=
    settings_setItem (fun o => { blockingEnabled := o }) rfl fun value _ => by cases value <;> rfl
  have blocklist (nvs : Nvs) : settings (setItem (json.item body "blocklist_url") (appConfigSetBlocklistUrl accepts) nvs) =
      (settings nvs).after { blocklistUrl := taken accepts "blocklist_url" (json.item body "blocklist_url") } :=
    settings_setItem (fun o => { blocklistUrl := o }) rfl fun url found => by
      rw [setStr, if_pos (urls _ _ found)]
      rfl
  have hours (nvs : Nvs) : settings (setItem (json.valueUint32 body "blocklist_refresh_interval_hours")
      (appConfigSetBlocklistRefreshIntervalHours accepts) nvs) = (settings nvs).after
        { refreshIntervalHours := taken accepts "refresh_hrs" (json.valueUint32 body "blocklist_refresh_interval_hours") } :=
    settings_setItem (fun o => { refreshIntervalHours := o }) rfl fun _ _ => rfl
  have firmware (nvs : Nvs) : settings (setItem (json.item body "fw_update_url") (appConfigSetFwUpdateUrl accepts) nvs) =
      (settings nvs).after { fwUpdateUrl := taken accepts "fw_url" (json.item body "fw_update_url") } :=
    settings_setItem (fun o => { fwUpdateUrl := o }) rfl fun url found => by
      rw [setStr, if_pos (urls _ _ found)]
      rfl
  have mode (nvs : Nvs) : settings (setItem (json.valueint body "net_mode") (appConfigSetNetMode accepts) nvs) =
      (settings nvs).after
        { netMode := (taken accepts "net_mode" (json.valueint body "net_mode")).map (BitVec.ofInt 8) } :=
    settings_setItem (fun o => { netMode := o.map (BitVec.ofInt 8) }) rfl fun _ _ => rfl
  have address (nvs : Nvs) : settings (setItem (staticIpItem json ips body) (appConfigSetStaticIp accepts) nvs) =
      (settings nvs).after { staticIp := taken accepts "static_ip" (staticIpItem json ips body) } :=
    settings_setItem (fun o => { staticIp := o }) rfl fun _ _ => rfl
  unfold saveConfig
  dsimp only
  rw [address, mode, firmware, hours, blocklist, enabled, policy, upstream2, upstream1]
  simp [Settings.after, postedFields]

/-- One request. -/
theorem settings_configPost (nvs : Nvs) (request : ConfigRequest) :
    settings (configPost json ips request.1 nvs request.2).2 = (settings nvs).after (postedBy json ips request) := by
  unfold configPost postedBy
  cases read : readBody maxPostBodyLen request.2 with
  | none => exact (Settings.after_nothing _).symm
  | some buf =>
    dsimp only
    split
    · exact (Settings.after_nothing _).symm
    · exact settings_saveConfig nvs fun _ _ => length_item_lt (readBody_eq_some read).2

/-- Any number of requests. -/
theorem settings_configPosts (nvs : Nvs) (requests : List ConfigRequest) :
    settings (configPosts json ips nvs requests) = (settings nvs).afterAll json ips requests := by
  induction requests generalizing nvs with
  | nil => rfl
  | cons request requests ih =>
    rw [configPosts, Settings.afterAll, List.foldl_cons, List.foldl_cons, ← settings_configPost]
    exact ih _

/-! ## Reading the URLs -/

/-- The URLs are C strings. -/
structure Settings.UrlsFree (s : Settings) : Prop where
  blocklist : NulFree s.blocklistUrl
  firmware : NulFree s.fwUpdateUrl

/-- An item is a C string, and so is what it replaces. -/
theorem nulFree_taken_getD {key field : String} {old : List Byte} (free : NulFree old) :
    NulFree ((taken accepts key (json.item body field)).getD old) := by
  unfold taken
  split
  · cases found : json.item body field with
    | none => exact free
    | some value => exact json.item_free found
  · exact free

theorem Settings.UrlsFree.after {s : Settings} (free : s.UrlsFree) (request : ConfigRequest) :
    (s.after (postedBy json ips request)).UrlsFree := by
  unfold postedBy
  split
  · rwa [Settings.after_nothing]
  split
  · rwa [Settings.after_nothing]
  · exact ⟨nulFree_taken_getD free.blocklist, nulFree_taken_getD free.firmware⟩

theorem Settings.UrlsFree.afterAll {s : Settings} (free : s.UrlsFree) (requests : List ConfigRequest) :
    (s.afterAll json ips requests).UrlsFree := by
  induction requests generalizing s with
  | nil => exact free
  | cons request requests ih => exact ih (free.after request)

theorem length_getStr (stored : Option (List Byte)) (buf : List Byte) : (getStr stored buf).2.length = buf.length := by
  unfold getStr
  split
  · exact List.length_set
  · split
    · simp only [List.length_append, List.length_cons, List.length_drop]
      omega
    · rfl

/-- A URL is read back exactly when it fits, whatever the buffer held. -/
theorem bufString_getStr_iff {stored : Option (List Byte)} {buf : List Byte} (free : NulFree (stored.getD [])) :
    bufString (getStr stored buf).2 = .ok (stored.getD []) ↔ (stored.getD []).length < buf.length := by
  constructor
  · intro read
    rw [← length_getStr stored buf]
    exact bufString_lt read
  · intro fits
    cases stored with
    | some value => exact bufString_getStr free fits
    | none =>
      obtain ⟨b, buf, rfl⟩ := List.exists_cons_of_length_pos fits
      simp [getStr, bufString, cstr]

/-- What the page shows, in terms of the two reads. -/
theorem configGet_eq {nvs : Nvs} {urlBuf blocklist firmware : List Byte}
    (read : bufString (getStr nvs.blocklistUrl urlBuf).2 = .ok blocklist)
    (read' : bufString (getStr nvs.fwUrl (getStr nvs.blocklistUrl urlBuf).2).2 = .ok firmware) :
    configGet ips nvs urlBuf =
      .ok ({ settings nvs with blocklistUrl := blocklist, fwUpdateUrl := firmware }.page ips) := by
  simp [configGet, read, read', bind, Except.bind, pure, Except.pure, Settings.page, settings]

/-- The page shows what is stored exactly when both URLs fit. -/
theorem configGet_page_iff {nvs : Nvs} (urlBuf : List Byte) (free : (settings nvs).UrlsFree) :
    configGet ips nvs urlBuf = .ok ((settings nvs).page ips) ↔
      (settings nvs).blocklistUrl.length < urlBuf.length ∧ (settings nvs).fwUpdateUrl.length < urlBuf.length := by
  have first : _ ↔ (settings nvs).blocklistUrl.length < urlBuf.length := bufString_getStr_iff free.blocklist
  have second : _ ↔ (settings nvs).fwUpdateUrl.length < (getStr nvs.blocklistUrl urlBuf).2.length :=
    bufString_getStr_iff free.firmware
  rw [length_getStr] at second
  rw [← first, ← second]
  constructor
  · intro shows
    unfold configGet at shows
    cases read : bufString (getStr nvs.blocklistUrl urlBuf).2 with
    | error fault => simp [read, bind, Except.bind] at shows
    | ok blocklist =>
      cases read' : bufString (getStr nvs.fwUrl (getStr nvs.blocklistUrl urlBuf).2).2 with
      | error fault => simp [read, read', bind, Except.bind] at shows
      | ok firmware =>
        simpa [read, read', bind, Except.bind, pure, Except.pure, Settings.page, settings] using shows
  · rintro ⟨read, read'⟩
    exact configGet_eq read read'

/-- A URL as it is read through a buffer of the page: what the buffer held, if the URL does not fit. -/
def throughBuffer (held url : List Byte) : List Byte := if url.length < maxUrlFieldLen then url else held

/-- A URL that does not fit leaves the buffer. -/
theorem getStr_of_long {stored : Option (List Byte)} {buf : List Byte} (some_room : 0 < buf.length)
    (long : buf.length ≤ (stored.getD []).length) : (getStr stored buf).2 = buf := by
  cases stored with
  | none => exact absurd (Nat.le_zero.mp long) some_room.ne'
  | some value => exact getStr_long long

theorem bufString_getStr_eq {stored : Option (List Byte)} {buf held : List Byte} (size : buf.length = maxUrlFieldLen)
    (free : NulFree (stored.getD [])) (holds : bufString buf = .ok held) :
    bufString (getStr stored buf).2 = .ok (throughBuffer held (stored.getD [])) := by
  unfold throughBuffer
  split
  · rename_i fits
    exact (bufString_getStr_iff free).mpr (size.symm ▸ fits)
  · rename_i long
    rw [getStr_of_long (Nat.zero_lt_of_lt (bufString_lt holds)) (size.symm ▸ Nat.not_lt.mp long)]
    exact holds

/-- The firmware URL is read into what the blocklist URL left in the buffer. -/
theorem configGet_through {nvs : Nvs} {urlBuf first : List Byte} (size : urlBuf.length = maxUrlFieldLen)
    (free : (settings nvs).UrlsFree) (read : bufString (getStr nvs.blocklistUrl urlBuf).2 = .ok first) :
    configGet ips nvs urlBuf = .ok ({ settings nvs with
      blocklistUrl := first, fwUpdateUrl := throughBuffer first (settings nvs).fwUpdateUrl }.page ips) :=
  configGet_eq read (bufString_getStr_eq ((length_getStr ..).trans size) free.firmware read)

/-- A blocklist URL that does not fit is not written to the buffer. -/
theorem configGet_long {nvs : Nvs} {urlBuf : List Byte} (size : urlBuf.length = maxUrlFieldLen)
    (free : (settings nvs).UrlsFree) (long : maxUrlFieldLen ≤ (settings nvs).blocklistUrl.length) :
    configGet ips nvs urlBuf = (bufString urlBuf).map fun held => { settings nvs with
      blocklistUrl := held, fwUpdateUrl := throughBuffer held (settings nvs).fwUpdateUrl }.page ips := by
  have room : 0 < urlBuf.length := size.symm ▸ (by decide : 0 < maxUrlFieldLen)
  have left : (getStr nvs.blocklistUrl urlBuf).2 = urlBuf := getStr_of_long room (size.symm ▸ long)
  cases holds : bufString urlBuf with
  | ok held => exact configGet_through size free ((congrArg bufString left).trans holds)
  | error fault =>
    have read : bufString (getStr nvs.blocklistUrl urlBuf).2 = .error fault := (congrArg bufString left).trans holds
    simp only [configGet, read]
    rfl

/-- **The page shows what was posted.** After any requests each field stored has the value
of the last request that NVS took it from, and the page shows them all exactly when both
URLs fit the buffer that they are read into one after the other. A firmware URL that does
not fit is shown as the other URL, and a blocklist URL that does not fit as what the buffer held. -/
theorem settings_shown (json : CJsonValues) (ips : IpText) {nvs : Nvs} (requests : List ConfigRequest) {urlBuf : List Byte}
    (size : urlBuf.length = maxUrlFieldLen) (free : (settings nvs).UrlsFree) {shown : Settings}
    (last : shown = (settings nvs).afterAll json ips requests) :
    settings (configPosts json ips nvs requests) = shown ∧
      (configGet ips (configPosts json ips nvs requests) urlBuf = .ok (shown.page ips) ↔
        shown.blocklistUrl.length ≤ 255 ∧ shown.fwUpdateUrl.length ≤ 255) ∧
      (shown.blocklistUrl.length ≤ 255 → 255 < shown.fwUpdateUrl.length →
        configGet ips (configPosts json ips nvs requests) urlBuf =
          .ok ({ shown with fwUpdateUrl := shown.blocklistUrl }.page ips)) ∧
      (255 < shown.blocklistUrl.length → configGet ips (configPosts json ips nvs requests) urlBuf =
        (bufString urlBuf).map fun held =>
          { shown with blocklistUrl := held, fwUpdateUrl := throughBuffer held shown.fwUpdateUrl }.page ips) := by
  have kept : shown.UrlsFree := last ▸ free.afterAll requests
  obtain rfl : settings (configPosts json ips nvs requests) = shown := (settings_configPosts nvs requests).trans last.symm
  have room : urlBuf.length = 256 := size
  refine ⟨rfl, ?_, fun fits long => ?_, configGet_long size kept⟩
  · rw [configGet_page_iff urlBuf kept, room, Nat.lt_succ_iff, Nat.lt_succ_iff]
  · have fits' : (settings (configPosts json ips nvs requests)).blocklistUrl.length < urlBuf.length := by
      rw [room]
      exact Nat.lt_succ_of_le fits
    have read := (bufString_getStr_iff kept.blocklist).mpr fits'
    have too_long : ¬ (settings (configPosts json ips nvs requests)).fwUpdateUrl.length < maxUrlFieldLen := Nat.not_lt.mpr long
    rw [configGet_through size kept read, throughBuffer, if_neg too_long]
    rfl

end

/-- cJSON, on a body with a URL. -/
def shortUrlJson : CJsonValues := urlJson (textBytes "http://h") (by decide)

/-- A URL is posted, and then a body that is no JSON; the page shows the URL and the defaults. -/
theorem posted_url_shown : configGet sampleIps (configPosts shortUrlJson sampleIps {}
      [(fun _ => true, some (urlBody (textBytes "http://h"))), (fun _ => true, some (textBytes "?"))])
      (List.replicate 256 0xFF#8) = .ok (Settings.page sampleIps { blocklistUrl := textBytes "http://h" }) := by
  refine (settings_shown shortUrlJson sampleIps _ (List.length_replicate ..) ?_ ?_).2.1.mpr ?_
  · exact ⟨nofun, nofun⟩
  · decide +kernel
  · decide

end EspAdblocker.Web
