import EspAdblocker.Config.Record
import EspAdblocker.Web.Settings

/-!
# The settings page over NVS

The handlers of `/api/config` as they call `app_config.c`. Over any requests they do
what `configPost` and `configGet` do over the record of the namespace
(`config_handlers_refine`): a setter that the flash refuses leaves its field, and
no setter touches another one's.
-/

namespace EspAdblocker.Web

open EspAdblocker.Lib EspAdblocker.Storage EspAdblocker.Config

/-! ## The handlers -/

/-- A setter that is called when the item is there; what it returns is ignored. -/
def saveItem {α : Type} (item : Option α) (set : α → AppConfig → EspErr × AppConfig) (c : AppConfig) : AppConfig :=
  match item with
  | some value => (set value c).2
  | none => c

/-- The setters of `config_post_handler`, in its order; `answer` is how the flash takes the write of a key. -/
def saveConfigNvs (json : CJsonValues) (ips : IpText) (answer : String → FlashAnswer) (body : List Byte)
    (c : AppConfig) : AppConfig :=
  let c := saveItem (json.item body "upstream1") (fun s => Config.appConfigSetUpstream1 (answer "upstream1") (ips.aton s)) c
  let c := saveItem (json.item body "upstream2") (fun s => Config.appConfigSetUpstream2 (answer "upstream2") (ips.aton s)) c
  let c := saveItem (json.valueint body "block_policy") (Config.appConfigSetBlockPolicy (answer "block_policy")) c
  let c := saveItem (json.isTrue body "blocking_enabled") (Config.appConfigSetBlockingEnabled (answer "block_en")) c
  let c := saveItem (json.item body "blocklist_url")
    (fun url => Config.appConfigSetBlocklistUrl (answer "blocklist_url") (cString url)) c
  let c := saveItem (json.valueUint32 body "blocklist_refresh_interval_hours")
    (Config.appConfigSetBlocklistRefreshIntervalHours (answer "refresh_hrs")) c
  let c := saveItem (json.item body "fw_update_url")
    (fun url => Config.appConfigSetFwUpdateUrl (answer "fw_url") (cString url)) c
  let c := saveItem (json.valueint body "net_mode") (Config.appConfigSetNetMode (answer "net_mode")) c
  saveItem (staticIpItem json ips body) (Config.appConfigSetStaticIp (answer "static_ip")) c

/-- `config_post_handler`. -/
def configPostNvs (json : CJsonValues) (ips : IpText) (answer : String → FlashAnswer) (c : AppConfig)
    (received : Option (List Byte)) : ConfigOutcome × AppConfig :=
  match readBody maxPostBodyLen received with
  | none => (.rejected "request body missing or too large", c)
  | some buf =>
    let body := cstr buf
    if json.parse body = false then (.rejected "invalid JSON", c)
    else
      let upstreamChanged := (json.item body "upstream1").isSome || (json.item body "upstream2").isSome
      let rebootRequired := (json.valueint body "net_mode").isSome || (staticIpItem json ips body).isSome
      (.saved upstreamChanged rebootRequired, saveConfigNvs json ips answer body c)

/-- `config_get_handler`. -/
def configGetNvs (ips : IpText) (c : AppConfig) (urlBuf : List Byte) : Except Fault (List (String × JsonValue)) := do
  let (err, staticIp) := appConfigGetStaticIp c
  let urlBuf := (appConfigGetBlocklistUrl urlBuf c).2
  let blocklistUrl ← bufString urlBuf
  let urlBuf := (appConfigGetFwUpdateUrl urlBuf c).2
  let fwUpdateUrl ← bufString urlBuf
  return [("net_mode", .number (appConfigGetNetMode c).toNat)] ++
    staticIpFields ips (if err = .ok then some staticIp else none) ++
    [("upstream1", .string (ips.ntoa (appConfigGetUpstream1 c))), ("upstream2", .string (ips.ntoa (appConfigGetUpstream2 c))),
      ("block_policy", .number (appConfigGetBlockPolicy c).toNat), ("blocking_enabled", .bool (appConfigGetBlockingEnabled c)),
      ("blocklist_url", .string blocklistUrl),
      ("blocklist_refresh_interval_hours", .number (appConfigGetBlocklistRefreshIntervalHours c).toNat),
      ("fw_update_url", .string fwUpdateUrl)]

/-! ## Their refinement -/

section

variable {json : CJsonValues} {ips : IpText} {answer : String → FlashAnswer} {body urlBuf : List Byte} {c : AppConfig} {nvs : Nvs}

/-- The keys whose writes are seen. -/
def shown (answer : String → FlashAnswer) (key : String) : Bool := (answer key).shows

/-- Two setters that agree, each called when the item is there. -/
theorem refines_item {α : Type} {item : Option α} {set : α → AppConfig → EspErr × AppConfig} {store : α → Nvs → Nvs}
    (refines : Refines c nvs) (each : ∀ v, item = some v → ∀ c nvs, Refines c nvs → Refines (set v c).2 (store v nvs)) :
    Refines (saveItem item set c) (setItem item store nvs) := by
  cases item with
  | none => exact refines
  | some v => exact each v rfl c nvs refines

/-- A value that NVS can hold. -/
theorem refines_setKey (refines : Refines c nvs) (s : Setting) (v : s.Value) (short : (s.encode v).tooLong = false) :
    Refines (Config.setKey (answer s.key) s.key (s.encode v) c).2 (setKey (shown answer) s.key (s.store v) nvs) := by
  have one := refines.set s (answer s.key) v
  rw [s.set_eq] at one
  rw [setKey, shown]
  simpa [short] using one

/-- A URL is stored if it is not too long. -/
theorem refines_setUrl (refines : Refines c nvs) (s : Setting) {url : List Byte} {v : s.Value} {store : Nvs → Nvs}
    (encoded : s.encode v = .str (cString url)) (free : NulFree url)
    (stores : store nvs = if url.length < nvsStrMax then s.store v nvs else nvs) :
    Refines (Config.setKey (answer s.key) s.key (.str (cString url)) c).2 (setKey (shown answer) s.key store nvs) := by
  have one := refines.set s (answer s.key) v
  have long : (NvsValue.str (cString url)).tooLong = decide (4000 ≤ url.length) := by
    change decide (4000 ≤ (cstr url).length) = _
    rw [cstr_eq_self free]
  rw [s.set_eq, encoded, long] at one
  rw [setKey, stores, shown, nvsStrMax]
  by_cases fits : url.length < 4000
  · simpa [fits] using one
  · simpa [fits] using one

theorem refines_blocklistUrl (refines : Refines c nvs) {url : List Byte} (free : NulFree url) :
    Refines (Config.appConfigSetBlocklistUrl (answer "blocklist_url") (cString url) c).2
      (appConfigSetBlocklistUrl (shown answer) url nvs) := by
  refine refines_setUrl refines .blocklistUrl rfl free ?_
  rw [setStr, Setting.store, show (cString url).val = url from cstr_eq_self free]
  split <;> rfl

theorem refines_fwUpdateUrl (refines : Refines c nvs) {url : List Byte} (free : NulFree url) :
    Refines (Config.appConfigSetFwUpdateUrl (answer "fw_url") (cString url) c).2
      (appConfigSetFwUpdateUrl (shown answer) url nvs) := by
  refine refines_setUrl refines .fwUpdateUrl rfl free ?_
  rw [setStr, Setting.store, show (cString url).val = url from cstr_eq_self free]
  split <;> rfl

/-- **The setters of a request.** -/
theorem refines_saveConfig (refines : Refines c nvs) :
    Refines (saveConfigNvs json ips answer body c) (saveConfig json ips (shown answer) body nvs) := by
  unfold saveConfigNvs saveConfig
  dsimp only
  have short (info : IpInfo) : (Setting.staticIp.encode info).tooLong = false := by
    simp [Setting.encode, NvsValue.tooLong, Setting.length_ipInfoBytes]
  refine refines_item ?_ fun info _ _ _ now => refines_setKey now .staticIp info (short info)
  refine refines_item ?_ fun mode _ _ _ now => refines_setKey now .netMode (BitVec.ofInt 8 mode) rfl
  refine refines_item ?_ fun url found _ _ now => refines_fwUpdateUrl now (json.item_free found)
  refine refines_item ?_ fun hours _ _ _ now => refines_setKey now .refreshIntervalHours hours rfl
  refine refines_item ?_ fun url found _ _ now => refines_blocklistUrl now (json.item_free found)
  refine refines_item ?_ fun enabled _ _ _ now => refines_setKey now .blockingEnabled enabled rfl
  refine refines_item ?_ fun policy _ _ _ now => refines_setKey now .blockPolicy (BitVec.ofInt 8 policy) rfl
  refine refines_item ?_ fun s _ _ _ now => refines_setKey now .upstream2 (ips.aton s) rfl
  exact refines_item refines fun s _ _ _ now => refines_setKey now .upstream1 (ips.aton s) rfl

/-- One request: its outcome is the same, and so is what is stored. -/
theorem refines_configPost (refines : Refines c nvs) (received : Option (List Byte)) :
    (configPostNvs json ips answer c received).1 = (configPost json ips (shown answer) nvs received).1 ∧
      Refines (configPostNvs json ips answer c received).2 (configPost json ips (shown answer) nvs received).2 := by
  unfold configPostNvs configPost
  cases readBody maxPostBodyLen received with
  | none => exact ⟨rfl, refines⟩
  | some buf =>
    dsimp only
    by_cases rejected : json.parse (cstr buf) = false
    · rw [if_pos rejected, if_pos rejected]
      exact ⟨rfl, refines⟩
    · rw [if_neg rejected, if_neg rejected]
      exact ⟨rfl, refines_saveConfig refines⟩

/-- What each getter of `app_config.c` returns for a record. -/
def replyFrom (nvs : Nvs) : (s : Setting) → s.Reply
  | .netMode => nvs.netMode.getD 0#8
  | .staticIp => nvs.staticIp.elim (espErrNvsNotFound, ⟨0#32, 0#32, 0#32⟩) fun info => (.ok, info)
  | .upstream1 => nvs.upstream1.getD 0x01010101#32
  | .upstream2 => nvs.upstream2.getD 0x08080808#32
  | .blockPolicy => nvs.policy
  | .blockingEnabled => nvs.blockingEnabled
  | .blocklistUrl => getStr nvs.blocklistUrl
  | .refreshIntervalHours => refreshIntervalHours nvs
  | .bloomActiveSlot => nvs.bloomActiveSlot
  | .fwUpdateUrl => getStr nvs.fwUrl
  | .exactListActiveSlot => nvs.exactListActiveSlot
  | .allowlist => getStr nvs.allowlist

/-- A string is read into a buffer as over the record. -/
theorem fillString_eq (stored : Option CString) : fillString stored = getStr (stored.map Subtype.val) := by
  cases stored <;> rfl

/-- **Every getter returns what it returns for the record.** -/
theorem get_eq (refines : Refines c nvs) (s : Setting) : s.get c = replyFrom nvs s := by
  have read := s.get_open refines.opened refines.wellTyped
  cases s with
  | blockingEnabled => exact refines.blockingEnabled
  | blocklistUrl | fwUpdateUrl | allowlist =>
    rw [read, ← refines.record]
    exact fillString_eq _
  | _ =>
    rw [read, ← refines.record]
    rfl

/-- **The page is the same.** -/
theorem configGetNvs_eq (refines : Refines c nvs) : configGetNvs ips c urlBuf = configGet ips nvs urlBuf := by
  have blocklist (outBuf : List Byte) : appConfigGetBlocklistUrl outBuf c = getStr nvs.blocklistUrl outBuf :=
    congrFun (get_eq refines .blocklistUrl) outBuf
  have firmware (outBuf : List Byte) : appConfigGetFwUpdateUrl outBuf c = getStr nvs.fwUrl outBuf :=
    congrFun (get_eq refines .fwUpdateUrl) outBuf
  have mode : appConfigGetNetMode c = nvs.netMode.getD 0#8 := get_eq refines .netMode
  have hours : appConfigGetBlocklistRefreshIntervalHours c = nvs.refreshHrs.getD 24#32 :=
    get_eq refines .refreshIntervalHours
  have address : (if (appConfigGetStaticIp c).1 = .ok then some (appConfigGetStaticIp c).2 else none) = nvs.staticIp := by
    have got : appConfigGetStaticIp c = replyFrom nvs .staticIp := get_eq refines .staticIp
    rw [got, replyFrom]
    cases nvs.staticIp <;> rfl
  unfold configGetNvs configGet
  simp only [blocklist, firmware, mode, hours, address, refines.upstream1, refines.upstream2, refines.policy,
    refines.blockingEnabled]

/-- The namespace after some requests, each with how the flash takes its writes. -/
def configPostsNvs (json : CJsonValues) (ips : IpText) (c : AppConfig)
    (requests : List ((String → FlashAnswer) × Option (List Byte))) : AppConfig :=
  requests.foldl (fun c request => (configPostNvs json ips request.1 c request.2).2) c

/-- The requests over the record, which takes a key if the flash does. -/
def overRecord (requests : List ((String → FlashAnswer) × Option (List Byte))) : List ConfigRequest :=
  requests.map fun request => (shown request.1, request.2)

theorem refines_configPosts (refines : Refines c nvs) (requests : List ((String → FlashAnswer) × Option (List Byte))) :
    Refines (configPostsNvs json ips c requests) (configPosts json ips nvs (overRecord requests)) := by
  induction requests generalizing c nvs with
  | nil => exact refines
  | cons request requests ih =>
    have first : Refines (configPostNvs json ips request.1 c request.2).2
        (configPost json ips (shown request.1) nvs request.2).2 := (refines_configPost refines request.2).2
    exact ih first

/-- **The settings page over NVS does what it does over the record.** After any requests to an
initialized namespace it holds the record after the same requests; so the page is that
of the record, every getter of the other programs returns what it returns for the record,
and the next request has the same outcome. A request may fail to write any key, also
when it is told so only after the write. -/
theorem config_handlers_refine (json : CJsonValues) (ips : IpText) {c : AppConfig} (initialized : c.sHandle = true)
    (wellTyped : c.WellTyped) {requests : List ((String → FlashAnswer) × Option (List Byte))} {c' : AppConfig} {nvs' : Nvs}
    (posted : c' = configPostsNvs json ips c requests) (recorded : nvs' = configPosts json ips c.record (overRecord requests)) :
    c'.record = nvs' ∧ (∀ s : Setting, s.get c' = replyFrom nvs' s) ∧
      (∀ urlBuf, configGetNvs ips c' urlBuf = configGet ips nvs' urlBuf) ∧
      ∀ answer received,
        (configPostNvs json ips answer c' received).1 = (configPost json ips (shown answer) nvs' received).1 := by
  have refines : Refines c' nvs' := by
    rw [posted, recorded]
    exact refines_configPosts ⟨initialized, wellTyped, rfl⟩ requests
  exact ⟨refines.record, get_eq refines, fun urlBuf => configGetNvs_eq refines,
    fun answer received => (refines_configPost refines received).1⟩

end

/-- A flash that refuses a write, and one that reports a failure after it wrote. -/
def refusing : FlashAnswer := ⟨.fail, false, .ok⟩

def lateFailure : FlashAnswer := ⟨.fail, true, .ok⟩

/-- An initialized namespace that was never written. -/
def emptyNamespace : AppConfig where
  seen _ := none
  durable _ := none
  sHandle := true
  sInitialized := true

theorem wellTyped_emptyNamespace : emptyNamespace.WellTyped :=
  ⟨fun _ _ stored => (by cases stored), fun _ _ stored => (by cases stored)⟩

/-- A URL is refused, and posted again to a flash that takes it but reports a failure. -/
theorem posted_url_stored : configGetNvs sampleIps (configPostsNvs shortUrlJson sampleIps emptyNamespace
      [(fun _ => refusing, some (urlBody (textBytes "http://h"))), (fun _ => lateFailure, some (urlBody (textBytes "http://h")))])
      (List.replicate 256 0xFF#8) =
    .ok (Settings.page sampleIps { blocklistUrl := textBytes "http://h" }) := by
  obtain ⟨-, -, page, -⟩ := config_handlers_refine shortUrlJson sampleIps rfl wellTyped_emptyNamespace rfl rfl
  rw [page]
  decide +kernel

end EspAdblocker.Web
