import EspAdblocker.Web.BlocklistUrl

/-!
# The delay between two refreshes

`periodic_task` turns the stored number of hours into milliseconds and those
into ticks, both in 32 bits. Neither product is checked, and nothing bounds the
hours, so the delay is the one that was asked for exactly when the number of
milliseconds times the tick rate is below 2^32: at 100 Hz, up to 11 hours.
-/

namespace EspAdblocker.Web

open EspAdblocker.Lib EspAdblocker.Storage

/-- `pdMS_TO_TICKS`, for a tick rate of `hz`. -/
def pdMsToTicks (hz ms : BitVec 32) : BitVec 32 := ms * hz / 1000#32

/-- `DISABLED_RECHECK_INTERVAL_MS`. -/
def disabledRecheckIntervalMs : BitVec 32 := 60#32 * 60#32 * 1000#32

/-- `hours * 3600UL * 1000UL`. -/
def refreshIntervalMs (hours : BitVec 32) : BitVec 32 := hours * 3600#32 * 1000#32

/-- The delay at the start of a turn of `periodic_task`, in ticks. -/
def periodicDelay (hz : BitVec 32) (nvs : Nvs) : BitVec 32 :=
  let hours := refreshIntervalHours nvs
  if hours = 0#32 then pdMsToTicks hz disabledRecheckIntervalMs else pdMsToTicks hz (refreshIntervalMs hours)

/-- The task waits as long as it was told to: neither product wraps, and the delay is that many hours of ticks. -/
structure WaitsHours (hz : BitVec 32) (nvs : Nvs) : Prop where
  milliseconds : (refreshIntervalMs (refreshIntervalHours nvs)).toNat = (refreshIntervalHours nvs).toNat * 3600 * 1000
  ticks : (refreshIntervalMs (refreshIntervalHours nvs) * hz).toNat =
    (refreshIntervalMs (refreshIntervalHours nvs)).toNat * hz.toNat
  delay : (periodicDelay hz nvs).toNat = (refreshIntervalHours nvs).toNat * 3600 * hz.toNat

/-! ## The two products -/

/-- A product that fits is not cut off. -/
theorem toNat_mul_of_lt {a b : BitVec 32} (fits : a.toNat * b.toNat < 2 ^ 32) : (a * b).toNat = a.toNat * b.toNat := by
  rw [BitVec.toNat_mul, Nat.mod_eq_of_lt fits]

theorem toNat_refreshIntervalMs {hours : BitVec 32} (fits : hours.toNat * 3600 * 1000 < 2 ^ 32) :
    (refreshIntervalMs hours).toNat = hours.toNat * 3600 * 1000 := by
  have factor : (3600#32).toNat = 3600 := by decide
  have thousand : (1000#32).toNat = 1000 := by decide
  have seconds : (hours * 3600#32).toNat = hours.toNat * 3600 := by
    apply toNat_mul_of_lt
    rw [factor]
    exact Nat.lt_of_le_of_lt (Nat.le_mul_of_pos_right _ (by decide)) fits
  rw [refreshIntervalMs, toNat_mul_of_lt, seconds, thousand]
  rw [seconds, thousand]
  exact fits

/-- Whatever the hours, the task never waits longer than 2^32 / 1000 ticks. -/
theorem pdMsToTicks_le (hz ms : BitVec 32) : (pdMsToTicks hz ms).toNat * 1000 < 2 ^ 32 := by
  have bound := (ms * hz).isLt
  rw [pdMsToTicks, BitVec.toNat_udiv]
  show (ms * hz).toNat / 1000 * 1000 < 2 ^ 32
  omega

/-- **The task waits as long as it was told to exactly when milliseconds times tick rate fit 32 bits.** -/
theorem waits_hours_iff {hz : BitVec 32} {nvs : Nvs} (rate : 100 ≤ hz.toNat) (enabled : refreshIntervalHours nvs ≠ 0#32) :
    WaitsHours hz nvs ↔ (refreshIntervalHours nvs).toNat * 3600 * 1000 * hz.toNat < 2 ^ 32 := by
  constructor
  · intro waits
    have delay := waits.delay
    rw [periodicDelay, if_neg enabled] at delay
    have bound := pdMsToTicks_le hz (refreshIntervalMs (refreshIntervalHours nvs))
    rw [delay] at bound
    calc (refreshIntervalHours nvs).toNat * 3600 * 1000 * hz.toNat
        = (refreshIntervalHours nvs).toNat * 3600 * hz.toNat * 1000 := by ring
      _ < 2 ^ 32 := bound
  · intro fits
    have short : (refreshIntervalHours nvs).toNat * 3600 * 1000 < 2 ^ 32 := by
      apply Nat.lt_of_le_of_lt _ fits
      exact Nat.le_mul_of_pos_right _ (by omega)
    have milliseconds := toNat_refreshIntervalMs short
    have ticks : (refreshIntervalMs (refreshIntervalHours nvs) * hz).toNat =
        (refreshIntervalMs (refreshIntervalHours nvs)).toNat * hz.toNat := by
      apply toNat_mul_of_lt
      rw [milliseconds]
      exact fits
    refine ⟨milliseconds, ticks, ?_⟩
    rw [periodicDelay, if_neg enabled, pdMsToTicks, BitVec.toNat_udiv, ticks, milliseconds]
    show (refreshIntervalHours nvs).toNat * 3600 * 1000 * hz.toNat / 1000 = _
    rw [Nat.mul_right_comm _ 1000, Nat.mul_div_cancel _ (by decide)]

/-! ## What can be stored -/

theorem refreshHrs_setKey {accepts : String → Bool} {key : String} {store : Nvs → Nvs}
    (keeps : ∀ nvs, (store nvs).refreshHrs = nvs.refreshHrs) (nvs : Nvs) :
    (setKey accepts key store nvs).refreshHrs = nvs.refreshHrs := by
  unfold setKey
  split
  · exact keeps nvs
  · rfl

theorem refreshHrs_setItem {α : Type} {item : Option α} {set : α → Nvs → Nvs} {nvs : Nvs}
    (keeps : ∀ value nvs, (set value nvs).refreshHrs = nvs.refreshHrs) :
    (setItem item set nvs).refreshHrs = nvs.refreshHrs := by
  cases item with
  | none => rfl
  | some value => exact keeps value nvs

/-- The hours of a request that is saved are what the task reads. -/
theorem refreshIntervalHours_posted {json : CJsonValues} {ips : IpText} {accepts : String → Bool} {nvs : Nvs}
    {body : List Byte} {hours : BitVec 32} (accepted : accepts "refresh_hrs" = true)
    (sent : json.valueUint32 body "blocklist_refresh_interval_hours" = some hours) :
    refreshIntervalHours (saveConfig json ips accepts body nvs) = hours := by
  have address (info : IpInfo) (nvs : Nvs) : (appConfigSetStaticIp accepts info nvs).refreshHrs = nvs.refreshHrs := by
    unfold appConfigSetStaticIp
    apply refreshHrs_setKey
    intro nvs
    rfl
  have mode (n : Int) (nvs : Nvs) : (appConfigSetNetMode accepts n nvs).refreshHrs = nvs.refreshHrs := by
    unfold appConfigSetNetMode
    apply refreshHrs_setKey
    intro nvs
    rfl
  have firmware (url : List Byte) (nvs : Nvs) : (appConfigSetFwUpdateUrl accepts url nvs).refreshHrs = nvs.refreshHrs := by
    unfold appConfigSetFwUpdateUrl
    apply refreshHrs_setKey
    intro nvs
    rfl
  unfold refreshIntervalHours saveConfig
  dsimp only
  rw [refreshHrs_setItem address, refreshHrs_setItem mode, refreshHrs_setItem firmware, sent]
  simp only [setItem, appConfigSetBlocklistRefreshIntervalHours, setKey, accepted, if_true, Option.getD_some]

/-- Whatever hours a request stores, the task waits that long. -/
def HoursWaited : Prop :=
  ∀ json ips accepts nvs received (hz : BitVec 32), 100 ≤ hz.toNat →
    refreshIntervalHours (configPost json ips accepts nvs received).2 ≠ 0#32 →
    WaitsHours hz (configPost json ips accepts nvs received).2

/-- A body with a number of hours. -/
def hoursBody : List Byte := textBytes "\x7b\"blocklist_refresh_interval_hours\":24\x7d"

/-- cJSON, on that body. -/
def hoursJson (hours : BitVec 32) : CJsonValues where
  parse body := body == hoursBody
  item _ _ := none
  item_free found := by cases found
  item_length found := by cases found
  valueint _ _ := none
  valueUint32 body key := if body = hoursBody ∧ key = "blocklist_refresh_interval_hours" then some hours else none
  isTrue _ _ := none

/-- Posting hours. -/
theorem post_hours (hours : BitVec 32) :
    refreshIntervalHours (configPost (hoursJson hours) sampleIps (fun _ => true) {} (some hoursBody)).2 = hours := by
  have text : cstr hoursBody = hoursBody := by decide
  have read : readBody maxPostBodyLen (some hoursBody) = some hoursBody := by decide
  have parsed : ¬ (hoursJson hours).parse hoursBody = false := by simp [hoursJson]
  unfold configPost
  rw [read]
  dsimp only
  rw [text, if_neg parsed]
  apply refreshIntervalHours_posted rfl
  simp [hoursJson]

/-- Eleven hours are waited for at 100 Hz. -/
theorem eleven_hours_waited :
    WaitsHours 100#32 (configPost (hoursJson 11#32) sampleIps (fun _ => true) {} (some hoursBody)).2 := by
  apply (waits_hours_iff _ _).mpr
  · rw [post_hours]
    decide
  · decide
  · rw [post_hours]
    decide

/-- A day at 100 Hz is not: 24 hours become 500 seconds. -/
theorem day_not_waited : ¬ HoursWaited := by
  intro waited
  have waits := waited (hoursJson 24#32) sampleIps (fun _ => true) {} (some hoursBody) 100#32 (by decide)
    (by rw [post_hours]; decide)
  have delay := waits.delay
  rw [periodicDelay, post_hours] at delay
  exact absurd delay (by decide)

end EspAdblocker.Web
