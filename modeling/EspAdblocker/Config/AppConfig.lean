import EspAdblocker.Storage.State

/-!
# The settings in NVS

`app_config.c`, over the store it keeps the settings in. A key of NVS holds a value
of one type, which is read under that type only. A write may fail, and may then
have happened nevertheless; what was written lasts once it is committed.
-/

namespace EspAdblocker.Config

open EspAdblocker.Lib EspAdblocker.Storage

/-! ## NVS -/

/-- A string that ends at its terminator. -/
abbrev CString := {text : List Byte // NulFree text}

/-- The string that a pointer to the bytes is. -/
def cString (bytes : List Byte) : CString := ⟨cstr bytes, nulFree_cstr bytes⟩

/-- What a key holds. -/
inductive NvsValue where
  | u8 (v : BitVec 8)
  | u32 (v : BitVec 32)
  | str (text : CString)
  | blob (bytes : List Byte)

namespace NvsValue

def u8? : NvsValue → Option (BitVec 8)
  | .u8 v => some v
  | _ => none

def u32? : NvsValue → Option (BitVec 32)
  | .u32 v => some v
  | _ => none

def str? : NvsValue → Option CString
  | .str text => some text
  | _ => none

def blob? : NvsValue → Option (List Byte)
  | .blob bytes => some bytes
  | _ => none

/-- Strings take up to 4000 bytes with their terminator, and blobs up to 508000. -/
def tooLong : NvsValue → Bool
  | .str text => 4000 ≤ text.val.length
  | .blob bytes => 508000 < bytes.length
  | _ => false

end NvsValue

/-- `ESP_ERR_NVS_NOT_FOUND`. -/
def espErrNvsNotFound : EspErr := .driver 0x1102

/-- `ESP_ERR_NVS_TYPE_MISMATCH`. -/
def espErrNvsTypeMismatch : EspErr := .driver 0x1103

/-- `ESP_ERR_NVS_INVALID_HANDLE`. -/
def espErrNvsInvalidHandle : EspErr := .driver 0x1107

/-- `ESP_ERR_NVS_KEY_TOO_LONG`. -/
def espErrNvsKeyTooLong : EspErr := .driver 0x1109

/-- `ESP_ERR_NVS_INVALID_LENGTH`. -/
def espErrNvsInvalidLength : EspErr := .driver 0x110C

/-- `ESP_ERR_NVS_VALUE_TOO_LONG`. -/
def espErrNvsValueTooLong : EspErr := .driver 0x110E

/-- The namespace as reads see it and as a restart finds it, and the statics of
`app_config.c`: whether `s_handle` is open, and `s_initialized`. -/
structure AppConfig where
  seen : String → Option NvsValue
  durable : String → Option NvsValue
  sHandle : Bool := false
  sInitialized : Bool := false

/-- How the flash takes a write: the result of `nvs_set_*`, whether the value was written
even if that is an error, and the result of `nvs_commit`. -/
structure FlashAnswer where
  set : EspErr
  written : Bool
  commit : EspErr

/-- `nvs_get_*`, of the type that `ofValue` reads. -/
def nvsGet {α : Type} (ofValue : NvsValue → Option α) (key : String) (c : AppConfig) : Except EspErr α :=
  if c.sHandle = false then .error espErrNvsInvalidHandle
  else match c.seen key with
    | none => .error espErrNvsNotFound
    | some value => match ofValue value with
      | none => .error espErrNvsTypeMismatch
      | some v => .ok v

/-- `nvs_set_*`. -/
def nvsSet (answer : FlashAnswer) (key : String) (value : NvsValue) (c : AppConfig) : EspErr × AppConfig :=
  if c.sHandle = false then (espErrNvsInvalidHandle, c)
  else if 15 < key.length then (espErrNvsKeyTooLong, c)
  else if value.tooLong then (espErrNvsValueTooLong, c)
  else if answer.set = .ok ∨ answer.written then
    (answer.set, { c with seen := Function.update c.seen key (some value) })
  else (answer.set, c)

/-- `nvs_commit`. -/
def nvsCommit (answer : FlashAnswer) (c : AppConfig) : EspErr × AppConfig :=
  if c.sHandle = false then (espErrNvsInvalidHandle, c)
  else if answer.commit = .ok then (.ok, { c with durable := c.seen })
  else (answer.commit, c)

/-- A restart on which `app_main` does not erase NVS: what was not committed may be lost, and the statics are. -/
def AppConfig.restart (survives : String → Bool) (c : AppConfig) : AppConfig where
  seen key := if survives key then c.seen key else c.durable key
  durable key := if survives key then c.seen key else c.durable key

/-! ## `app_config.c` -/

/-- `app_config_init`; `opened` is what `nvs_open` returns. -/
def appConfigInit (opened : EspErr) (c : AppConfig) : EspErr × AppConfig :=
  if c.sInitialized then (.invalidState, c)
  else if opened = .ok then (.ok, { c with sHandle := true, sInitialized := true })
  else (opened, c)

/-- The getters of numbers: a local holds the default, and the error is ignored. -/
def getNumber {α : Type} (ofValue : NvsValue → Option α) (key : String) (v : α) (c : AppConfig) : α :=
  match nvsGet ofValue key c with
  | .ok v => v
  | .error _ => v

/-- The setters: `nvs_set_*`, and `nvs_commit` if it did not fail. -/
def setKey (answer : FlashAnswer) (key : String) (value : NvsValue) (c : AppConfig) : EspErr × AppConfig :=
  let (err, c) := nvsSet answer key value c
  if err = .ok then nvsCommit answer c else (err, c)

/-- The getters of strings: `nvs_get_str` into a buffer, and the empty string for a key that
was never written. -/
def getString (key : String) (outBuf : List Byte) (c : AppConfig) : EspErr × List Byte :=
  let (err, outBuf) := match nvsGet NvsValue.str? key c with
    | .error err => (err, outBuf)
    | .ok text =>
      if text.val.length < outBuf.length then (.ok, text.val ++ 0#8 :: outBuf.drop (text.val.length + 1))
      else (espErrNvsInvalidLength, outBuf)
  if err = espErrNvsNotFound then (.ok, outBuf.set 0 0#8) else (err, outBuf)

/-- The bytes of an `esp_netif_ip_info_t`. -/
def ipInfoBytes (info : IpInfo) : List Byte :=
  packFields [(4, info.ip.toNat), (4, info.netmask.toNat), (4, info.gw.toNat)]

/-- The structure of twelve bytes. -/
def ipInfoOf (bytes : List Byte) : IpInfo := ⟨readLe 32 bytes 0, readLe 32 bytes 4, readLe 32 bytes 8⟩

/-- `app_config_get_net_mode`. -/
def appConfigGetNetMode : AppConfig → BitVec 8 := getNumber NvsValue.u8? "net_mode" 0#8

/-- `app_config_set_net_mode`, of `(uint8_t)mode`. -/
def appConfigSetNetMode (answer : FlashAnswer) (mode : Int) : AppConfig → EspErr × AppConfig :=
  setKey answer "net_mode" (.u8 (BitVec.ofInt 8 mode))

/-- `app_config_get_static_ip`: the structure is zeroed, then `nvs_get_blob` copies what fits into it. -/
def appConfigGetStaticIp (c : AppConfig) : EspErr × IpInfo :=
  match nvsGet NvsValue.blob? "static_ip" c with
  | .error err => (err, ⟨0#32, 0#32, 0#32⟩)
  | .ok bytes =>
    if bytes.length ≤ 12 then (.ok, ipInfoOf (bytes ++ List.replicate (12 - bytes.length) 0#8))
    else (espErrNvsInvalidLength, ⟨0#32, 0#32, 0#32⟩)

/-- `app_config_set_static_ip`. -/
def appConfigSetStaticIp (answer : FlashAnswer) (ipInfo : IpInfo) : AppConfig → EspErr × AppConfig :=
  setKey answer "static_ip" (.blob (ipInfoBytes ipInfo))

/-- `app_config_get_upstream1`. -/
def appConfigGetUpstream1 : AppConfig → BitVec 32 := getNumber NvsValue.u32? "upstream1" 0x01010101#32

/-- `app_config_get_upstream2`. -/
def appConfigGetUpstream2 : AppConfig → BitVec 32 := getNumber NvsValue.u32? "upstream2" 0x08080808#32

/-- `app_config_set_upstream1`. -/
def appConfigSetUpstream1 (answer : FlashAnswer) (ip4 : BitVec 32) : AppConfig → EspErr × AppConfig :=
  setKey answer "upstream1" (.u32 ip4)

/-- `app_config_set_upstream2`. -/
def appConfigSetUpstream2 (answer : FlashAnswer) (ip4 : BitVec 32) : AppConfig → EspErr × AppConfig :=
  setKey answer "upstream2" (.u32 ip4)

/-- `app_config_get_block_policy`. -/
def appConfigGetBlockPolicy : AppConfig → BitVec 8 := getNumber NvsValue.u8? "block_policy" 0#8

/-- `app_config_set_block_policy`, of `(uint8_t)policy`. -/
def appConfigSetBlockPolicy (answer : FlashAnswer) (policy : Int) : AppConfig → EspErr × AppConfig :=
  setKey answer "block_policy" (.u8 (BitVec.ofInt 8 policy))

/-- `app_config_get_blocking_enabled`: on by default. -/
def appConfigGetBlockingEnabled (c : AppConfig) : Bool := getNumber NvsValue.u8? "block_en" 1#8 c != 0#8

/-- `app_config_set_blocking_enabled`. -/
def appConfigSetBlockingEnabled (answer : FlashAnswer) (enabled : Bool) : AppConfig → EspErr × AppConfig :=
  setKey answer "block_en" (.u8 (if enabled then 1#8 else 0#8))

/-- `app_config_get_blocklist_url`. -/
def appConfigGetBlocklistUrl : List Byte → AppConfig → EspErr × List Byte := getString "blocklist_url"

/-- `app_config_set_blocklist_url`. -/
def appConfigSetBlocklistUrl (answer : FlashAnswer) (url : CString) : AppConfig → EspErr × AppConfig :=
  setKey answer "blocklist_url" (.str url)

/-- `app_config_get_blocklist_refresh_interval_hours`. -/
def appConfigGetBlocklistRefreshIntervalHours : AppConfig → BitVec 32 := getNumber NvsValue.u32? "refresh_hrs" 24#32

/-- `app_config_set_blocklist_refresh_interval_hours`. -/
def appConfigSetBlocklistRefreshIntervalHours (answer : FlashAnswer) (hours : BitVec 32) : AppConfig → EspErr × AppConfig :=
  setKey answer "refresh_hrs" (.u32 hours)

/-- `app_config_get_bloom_active_slot`. -/
def appConfigGetBloomActiveSlot : AppConfig → BitVec 8 := getNumber NvsValue.u8? "bloom_slot" 0#8

/-- `app_config_set_bloom_active_slot`. -/
def appConfigSetBloomActiveSlot (answer : FlashAnswer) (slot : BitVec 8) : AppConfig → EspErr × AppConfig :=
  setKey answer "bloom_slot" (.u8 slot)

/-- `app_config_get_fw_update_url`. -/
def appConfigGetFwUpdateUrl : List Byte → AppConfig → EspErr × List Byte := getString "fw_url"

/-- `app_config_set_fw_update_url`. -/
def appConfigSetFwUpdateUrl (answer : FlashAnswer) (url : CString) : AppConfig → EspErr × AppConfig :=
  setKey answer "fw_url" (.str url)

/-- `app_config_get_exact_list_active_slot`. -/
def appConfigGetExactListActiveSlot : AppConfig → BitVec 8 := getNumber NvsValue.u8? "list_slot" 0#8

/-- `app_config_set_exact_list_active_slot`. -/
def appConfigSetExactListActiveSlot (answer : FlashAnswer) (slot : BitVec 8) : AppConfig → EspErr × AppConfig :=
  setKey answer "list_slot" (.u8 slot)

/-- `app_config_get_allowlist`. -/
def appConfigGetAllowlist : List Byte → AppConfig → EspErr × List Byte := getString "allowlist"

/-- `app_config_set_allowlist`. -/
def appConfigSetAllowlist (answer : FlashAnswer) (newlineSeparatedDomains : CString) : AppConfig → EspErr × AppConfig :=
  setKey answer "allowlist" (.str newlineSeparatedDomains)

end EspAdblocker.Config
