import EspAdblocker.Storage.State
import EspAdblocker.Web.Request

/-!
# Settings, from the browser and back

`config_post_handler`, `config_get_handler` and the NVS keys between them. A
string is read back into a buffer on the caller's stack: one that does not fit
is an error and leaves the buffer as it was (`getStr`), and no reader looks at
the error.
-/

namespace EspAdblocker.Web

open EspAdblocker.Lib EspAdblocker.Storage

/-! ## Strings in NVS -/

/-- The room of an NVS string, its terminator included. -/
def nvsStrMax : Nat := 4000

/-- What `nvs_set_str` leaves where NVS takes the key: a string of up to 3999 bytes, or the old one. -/
def setStr (old : Option (List Byte)) (value : List Byte) : Option (List Byte) :=
  if value.length < nvsStrMax then some value else old

/-- `ESP_ERR_NVS_INVALID_LENGTH`. -/
def espErrNvsInvalidLength : EspErr := .driver 0x110C

/-- `app_config_get_blocklist_url` and `app_config_get_fw_update_url`: `nvs_get_str` into a buffer,
and the empty string for a key that was never written. -/
def getStr (stored : Option (List Byte)) (buf : List Byte) : EspErr × List Byte :=
  match stored with
  | none => (.ok, buf.set 0 0#8)
  | some value =>
    if value.length < buf.length then (.ok, value ++ 0#8 :: buf.drop (value.length + 1))
    else (espErrNvsInvalidLength, buf)

/-- What follows a pointer to the buffer as a C string. -/
def bufString (buf : List Byte) : Except Fault (List Byte) :=
  if 0#8 ∈ buf then .ok (cstr buf) else .error .outOfBounds

section

variable {value buf : List Byte}

/-- A string that fits is read back. -/
theorem bufString_getStr (free : NulFree value) (fits : value.length < buf.length) :
    bufString (getStr (some value) buf).2 = .ok value := by
  unfold getStr bufString
  simp only [if_pos fits]
  rw [if_pos (by simp), cstr_append free]

/-- One that does not fit leaves the buffer. -/
theorem getStr_long (long : buf.length ≤ value.length) : (getStr (some value) buf).2 = buf := by
  unfold getStr
  simp only [if_neg (Nat.not_lt.mpr long)]

/-- A C string in a buffer is shorter than the buffer. -/
theorem bufString_lt (read : bufString buf = .ok value) : value.length < buf.length := by
  unfold bufString at read
  split at read
  · rename_i nul
    cases read
    have prefixed : cstr buf <+: buf := List.takeWhile_prefix _
    refine Nat.lt_of_le_of_ne prefixed.length_le fun whole => ?_
    rw [← prefixed.eq_of_length whole] at nul
    exact nulFree_cstr buf _ nul rfl
  · cases read

end

/-! ## Saving -/

/-- cJSON on the values of the other types: `valueint`, `(uint32_t)valuedouble`, and whether a bool is true. -/
structure CJsonValues extends CJson where
  valueint : List Byte → String → Option Int
  valueUint32 : List Byte → String → Option (BitVec 32)
  isTrue : List Byte → String → Option Bool

/-- `esp_ip4addr_aton` and `esp_ip4addr_ntoa`. -/
structure IpText where
  aton : List Byte → BitVec 32
  ntoa : BitVec 32 → List Byte

/-- `nvs_set_u8`, `nvs_set_u32`, `nvs_set_blob` or `nvs_set_str` of a key, which NVS may refuse. A commit that fails changes nothing here. -/
def setKey (accepts : String → Bool) (key : String) (store : Nvs → Nvs) (nvs : Nvs) : Nvs :=
  if accepts key then store nvs else nvs

/-- A setter that is called when the item is there. -/
def setItem {α : Type} (item : Option α) (set : α → Nvs → Nvs) (nvs : Nvs) : Nvs :=
  match item with
  | some value => set value nvs
  | none => nvs

/-- `app_config_set_upstream1`. -/
def appConfigSetUpstream1 (accepts : String → Bool) (ip4 : BitVec 32) : Nvs → Nvs :=
  setKey accepts "upstream1" fun nvs => { nvs with upstream1 := some ip4 }

/-- `app_config_set_upstream2`. -/
def appConfigSetUpstream2 (accepts : String → Bool) (ip4 : BitVec 32) : Nvs → Nvs :=
  setKey accepts "upstream2" fun nvs => { nvs with upstream2 := some ip4 }

/-- `app_config_set_block_policy`, of `(uint8_t)policy`. -/
def appConfigSetBlockPolicy (accepts : String → Bool) (policy : Int) : Nvs → Nvs :=
  setKey accepts "block_policy" fun nvs => { nvs with blockPolicy := some (BitVec.ofInt 8 policy) }

/-- `app_config_set_blocking_enabled`. -/
def appConfigSetBlockingEnabled (accepts : String → Bool) (enabled : Bool) : Nvs → Nvs :=
  setKey accepts "block_en" fun nvs => { nvs with blockEn := some (if enabled then 1#8 else 0#8) }

/-- `app_config_set_blocklist_url`. -/
def appConfigSetBlocklistUrl (accepts : String → Bool) (url : List Byte) : Nvs → Nvs :=
  setKey accepts "blocklist_url" fun nvs => { nvs with blocklistUrl := setStr nvs.blocklistUrl url }

/-- `app_config_set_blocklist_refresh_interval_hours`. -/
def appConfigSetBlocklistRefreshIntervalHours (accepts : String → Bool) (hours : BitVec 32) : Nvs → Nvs :=
  setKey accepts "refresh_hrs" fun nvs => { nvs with refreshHrs := some hours }

/-- `app_config_set_fw_update_url`. -/
def appConfigSetFwUpdateUrl (accepts : String → Bool) (url : List Byte) : Nvs → Nvs :=
  setKey accepts "fw_url" fun nvs => { nvs with fwUrl := setStr nvs.fwUrl url }

/-- `app_config_set_net_mode`, of `(uint8_t)mode`. -/
def appConfigSetNetMode (accepts : String → Bool) (mode : Int) : Nvs → Nvs :=
  setKey accepts "net_mode" fun nvs => { nvs with netMode := some (BitVec.ofInt 8 mode) }

/-- `app_config_set_static_ip`. -/
def appConfigSetStaticIp (accepts : String → Bool) (info : IpInfo) : Nvs → Nvs :=
  setKey accepts "static_ip" fun nvs => { nvs with staticIp := some info }

/-- `MAX_POST_BODY_LEN`. -/
def maxPostBodyLen : Nat := 1024

/-- How `config_post_handler` ends: an error, or `ok` with whether the proxy is told of new
upstreams and whether a reboot is required. -/
inductive ConfigOutcome where
  | rejected (message : String)
  | saved (upstreamChanged rebootRequired : Bool)
  deriving DecidableEq, Repr

/-- The address, mask and gateway of a body that has all three. -/
def staticIpItem (json : CJsonValues) (ips : IpText) (body : List Byte) : Option IpInfo :=
  match json.item body "static_ip", json.item body "static_mask", json.item body "static_gw" with
  | some ip, some mask, some gw => some ⟨ips.aton ip, ips.aton mask, ips.aton gw⟩
  | _, _, _ => none

/-- The setters of `config_post_handler`, in its order. The handler ignores what they return. -/
def saveConfig (json : CJsonValues) (ips : IpText) (accepts : String → Bool) (body : List Byte) (nvs : Nvs) : Nvs :=
  let nvs := setItem (json.item body "upstream1") (fun s => appConfigSetUpstream1 accepts (ips.aton s)) nvs
  let nvs := setItem (json.item body "upstream2") (fun s => appConfigSetUpstream2 accepts (ips.aton s)) nvs
  let nvs := setItem (json.valueint body "block_policy") (appConfigSetBlockPolicy accepts) nvs
  let nvs := setItem (json.isTrue body "blocking_enabled") (appConfigSetBlockingEnabled accepts) nvs
  let nvs := setItem (json.item body "blocklist_url") (appConfigSetBlocklistUrl accepts) nvs
  let nvs := setItem (json.valueUint32 body "blocklist_refresh_interval_hours")
    (appConfigSetBlocklistRefreshIntervalHours accepts) nvs
  let nvs := setItem (json.item body "fw_update_url") (appConfigSetFwUpdateUrl accepts) nvs
  let nvs := setItem (json.valueint body "net_mode") (appConfigSetNetMode accepts) nvs
  setItem (staticIpItem json ips body) (appConfigSetStaticIp accepts) nvs

/-- `config_post_handler`. -/
def configPost (json : CJsonValues) (ips : IpText) (accepts : String → Bool) (nvs : Nvs)
    (received : Option (List Byte)) : ConfigOutcome × Nvs :=
  match readBody maxPostBodyLen received with
  | none => (.rejected "request body missing or too large", nvs)
  | some buf =>
    let body := cstr buf
    if json.parse body = false then (.rejected "invalid JSON", nvs)
    else
      let upstreamChanged := (json.item body "upstream1").isSome || (json.item body "upstream2").isSome
      let rebootRequired := (json.valueint body "net_mode").isSome || (staticIpItem json ips body).isSome
      (.saved upstreamChanged rebootRequired, saveConfig json ips accepts body nvs)

/-- The setter leaves the URL of the blocklist. -/
def KeepsUrl (set : Nvs → Nvs) : Prop := ∀ nvs, (set nvs).blocklistUrl = nvs.blocklistUrl

theorem keepsUrl_setKey {accepts : String → Bool} {key : String} {store : Nvs → Nvs} (keeps : KeepsUrl store) :
    KeepsUrl (setKey accepts key store) := by
  intro nvs
  unfold setKey
  split
  · exact keeps nvs
  · rfl

theorem keepsUrl_setItem {α : Type} {item : Option α} {set : α → Nvs → Nvs} (keeps : ∀ value, KeepsUrl (set value)) :
    KeepsUrl (setItem item set) := by
  intro nvs
  cases item with
  | none => rfl
  | some value => exact keeps value nvs

/-- Of all the setters one stores the URL, where NVS takes it. -/
theorem saveConfig_blocklistUrl (json : CJsonValues) (ips : IpText) (accepts : String → Bool) (body : List Byte)
    (nvs : Nvs) : (saveConfig json ips accepts body nvs).blocklistUrl =
      (json.item body "blocklist_url").elim nvs.blocklistUrl fun url =>
        if accepts "blocklist_url" then setStr nvs.blocklistUrl url else nvs.blocklistUrl := by
  have upstream1 (s : List Byte) : KeepsUrl (appConfigSetUpstream1 accepts (ips.aton s)) := keepsUrl_setKey fun _ => rfl
  have upstream2 (s : List Byte) : KeepsUrl (appConfigSetUpstream2 accepts (ips.aton s)) := keepsUrl_setKey fun _ => rfl
  have policy (n : Int) : KeepsUrl (appConfigSetBlockPolicy accepts n) := keepsUrl_setKey fun _ => rfl
  have enabled (b : Bool) : KeepsUrl (appConfigSetBlockingEnabled accepts b) := keepsUrl_setKey fun _ => rfl
  have hours (n : BitVec 32) : KeepsUrl (appConfigSetBlocklistRefreshIntervalHours accepts n) :=
    keepsUrl_setKey fun _ => rfl
  have firmware (url : List Byte) : KeepsUrl (appConfigSetFwUpdateUrl accepts url) := keepsUrl_setKey fun _ => rfl
  have mode (n : Int) : KeepsUrl (appConfigSetNetMode accepts n) := keepsUrl_setKey fun _ => rfl
  have address (info : IpInfo) : KeepsUrl (appConfigSetStaticIp accepts info) := keepsUrl_setKey fun _ => rfl
  unfold saveConfig
  dsimp only
  rw [keepsUrl_setItem address, keepsUrl_setItem mode, keepsUrl_setItem firmware, keepsUrl_setItem hours]
  cases json.item body "blocklist_url" with
  | none =>
    rw [setItem, keepsUrl_setItem enabled, keepsUrl_setItem policy, keepsUrl_setItem upstream2, keepsUrl_setItem upstream1]
    rfl
  | some url =>
    have before : (setItem (json.isTrue body "blocking_enabled") (appConfigSetBlockingEnabled accepts)
        (setItem (json.valueint body "block_policy") (appConfigSetBlockPolicy accepts)
          (setItem (json.item body "upstream2") (fun s => appConfigSetUpstream2 accepts (ips.aton s))
            (setItem (json.item body "upstream1") (fun s => appConfigSetUpstream1 accepts (ips.aton s)) nvs)))).blocklistUrl =
              nvs.blocklistUrl := by
      rw [keepsUrl_setItem enabled, keepsUrl_setItem policy, keepsUrl_setItem upstream2, keepsUrl_setItem upstream1]
    rw [setItem, appConfigSetBlocklistUrl, setKey, Option.elim_some]
    split
    · rw [← before]
    · exact before

/-! ## Showing -/

/-- A value of the object the browser gets. -/
inductive JsonValue where
  | number (n : Nat)
  | bool (b : Bool)
  | string (s : List Byte)
  deriving DecidableEq, Repr

/-- `MAX_URL_FIELD_LEN`. -/
def maxUrlFieldLen : Nat := 256

/-- The static address, if one was ever set. -/
def staticIpFields (ips : IpText) (info : Option IpInfo) : List (String × JsonValue) :=
  match info with
  | none => []
  | some info => [("static_ip", .string (ips.ntoa info.ip)), ("static_mask", .string (ips.ntoa info.netmask)),
      ("static_gw", .string (ips.ntoa info.gw))]

/-- `config_get_handler`. `url_buf` holds what the stack held, and serves both URLs. -/
def configGet (ips : IpText) (nvs : Nvs) (urlBuf : List Byte) : Except Fault (List (String × JsonValue)) := do
  let urlBuf := (getStr nvs.blocklistUrl urlBuf).2
  let blocklistUrl ← bufString urlBuf
  let urlBuf := (getStr nvs.fwUrl urlBuf).2
  let fwUpdateUrl ← bufString urlBuf
  return [("net_mode", .number (nvs.netMode.getD 0#8).toNat)] ++ staticIpFields ips nvs.staticIp ++
    [("upstream1", .string (ips.ntoa (nvs.upstream1.getD 0x01010101#32))),
      ("upstream2", .string (ips.ntoa (nvs.upstream2.getD 0x08080808#32))),
      ("block_policy", .number nvs.policy.toNat), ("blocking_enabled", .bool nvs.blockingEnabled),
      ("blocklist_url", .string blocklistUrl),
      ("blocklist_refresh_interval_hours", .number (nvs.refreshHrs.getD 24#32).toNat),
      ("fw_update_url", .string fwUpdateUrl)]

section

variable {ips : IpText} {nvs : Nvs} {urlBuf url : List Byte}

/-- The second string is read into a buffer that ends somewhere, when the first one was. -/
theorem getStr_ends (stored : Option (List Byte)) {buf : List Byte} (ends : 0#8 ∈ buf) : 0#8 ∈ (getStr stored buf).2 := by
  unfold getStr
  split
  · cases buf with
    | nil => cases ends
    | cons b buf => exact List.mem_cons_self ..
  · split
    · simp
    · exact ends

/-- The browser sees what the buffer holds after the read. -/
theorem configGet_shows {object : List (String × JsonValue)} (got : configGet ips nvs urlBuf = .ok object) :
    ∃ shown, bufString (getStr nvs.blocklistUrl urlBuf).2 = .ok shown ∧
      object.lookup "blocklist_url" = some (.string shown) := by
  unfold configGet at got
  cases read : bufString (getStr nvs.blocklistUrl urlBuf).2 with
  | error fault => simp [read, bind, Except.bind] at got
  | ok shown =>
    refine ⟨shown, rfl, ?_⟩
    cases read' : bufString (getStr nvs.fwUrl (getStr nvs.blocklistUrl urlBuf).2).2 with
    | error fault => simp [read, read', bind, Except.bind] at got
    | ok firmware =>
      simp only [read, read', bind, Except.bind, pure, Except.pure, Except.ok.injEq] at got
      rw [← got]
      cases nvs.staticIp <;> rfl

/-- A buffer that ends somewhere is shown. -/
theorem configGet_of_read {shown : List Byte} (read : bufString (getStr nvs.blocklistUrl urlBuf).2 = .ok shown) :
    ∃ object, configGet ips nvs urlBuf = .ok object := by
  have ends : 0#8 ∈ (getStr nvs.blocklistUrl urlBuf).2 := by
    unfold bufString at read
    split at read
    · assumption
    · cases read
  have read' : bufString (getStr nvs.fwUrl (getStr nvs.blocklistUrl urlBuf).2).2 =
      .ok (cstr (getStr nvs.fwUrl (getStr nvs.blocklistUrl urlBuf).2).2) := by
    rw [bufString, if_pos (getStr_ends _ ends)]
  unfold configGet
  simp only [read, read', bind, Except.bind, pure, Except.pure]
  exact ⟨_, rfl⟩

/-- **The browser is shown the URL exactly when it fits** with its terminator, whatever the stack held. -/
theorem configGet_shows_iff (stored : nvs.blocklistUrl = some url) (free : NulFree url) :
    (∃ object, configGet ips nvs urlBuf = .ok object ∧ object.lookup "blocklist_url" = some (.string url)) ↔
      url.length < urlBuf.length := by
  constructor
  · rintro ⟨object, got, shows⟩
    obtain ⟨shown, read, shows'⟩ := configGet_shows got
    obtain rfl : url = shown := JsonValue.string.inj (Option.some.inj (shows.symm.trans shows'))
    by_contra long
    rw [stored, getStr_long (Nat.not_lt.mp long)] at read
    exact long (bufString_lt read)
  · intro fits
    have read : bufString (getStr nvs.blocklistUrl urlBuf).2 = .ok url := by
      rw [stored]
      exact bufString_getStr free fits
    obtain ⟨object, got⟩ := @configGet_of_read ips nvs urlBuf url read
    obtain ⟨shown, read', shows⟩ := configGet_shows got
    obtain rfl : url = shown := Except.ok.inj (read.symm.trans read')
    exact ⟨object, got, shows⟩

end

end EspAdblocker.Web
