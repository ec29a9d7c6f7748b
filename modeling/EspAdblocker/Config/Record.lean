import EspAdblocker.Config.Settings

/-!
# The settings as a record

While `app_config.c` is initialized, what is read from NVS is what is read from a
record with one field for each key (`Nvs`), and a setter changes its own field. The
programs that are modelled over the record are so modelled over NVS (`Refines`).
-/

namespace EspAdblocker.Config

open EspAdblocker.Lib EspAdblocker.Storage

/-- The record of what reads see. -/
def AppConfig.record (c : AppConfig) : Nvs where
  bloomSlot := c.registers.seen .bloomActiveSlot
  listSlot := c.registers.seen .exactListActiveSlot
  blockEn := (c.seen "block_en").bind NvsValue.u8?
  blockPolicy := c.registers.seen .blockPolicy
  upstream1 := c.registers.seen .upstream1
  upstream2 := c.registers.seen .upstream2
  allowlist := (c.registers.seen .allowlist).map Subtype.val
  netMode := c.registers.seen .netMode
  staticIp := c.registers.seen .staticIp
  blocklistUrl := (c.registers.seen .blocklistUrl).map Subtype.val
  refreshHrs := c.registers.seen .refreshIntervalHours
  fwUrl := (c.registers.seen .fwUpdateUrl).map Subtype.val

/-- The record with one setting changed. -/
def Setting.store : (s : Setting) → s.Value → Nvs → Nvs
  | netMode, v, nvs => { nvs with netMode := some v }
  | staticIp, v, nvs => { nvs with staticIp := some v }
  | upstream1, v, nvs => { nvs with upstream1 := some v }
  | upstream2, v, nvs => { nvs with upstream2 := some v }
  | blockPolicy, v, nvs => { nvs with blockPolicy := some v }
  | blockingEnabled, v, nvs => { nvs with blockEn := some (if v then 1#8 else 0#8) }
  | blocklistUrl, v, nvs => { nvs with blocklistUrl := some v.val }
  | refreshIntervalHours, v, nvs => { nvs with refreshHrs := some v }
  | bloomActiveSlot, v, nvs => { nvs with bloomSlot := some v }
  | fwUpdateUrl, v, nvs => { nvs with fwUrl := some v.val }
  | exactListActiveSlot, v, nvs => { nvs with listSlot := some v }
  | allowlist, v, nvs => { nvs with allowlist := some v.val }

/-- **A setting that is written changes its field of the record**, and no other. -/
theorem AppConfig.record_put (c : AppConfig) (s : Setting) (v : s.Value) : (c.put s v).record = s.store v c.record := by
  have own : (c.put s v).registers.seen s = some v := by rw [c.registers_put, Cached.seen_write_self]
  have other (t : Setting) (differs : t ≠ s) : (c.put s v).registers.seen t = c.registers.seen t := by
    rw [c.registers_put, Cached.seen_write_of_ne _ _ differs]
  have raw (differs : .blockingEnabled ≠ s) : (c.put s v).seen "block_en" = c.seen "block_en" := c.seen_put_of_ne v differs
  cases s with
  | blockingEnabled =>
    have stored : (c.put .blockingEnabled v).seen "block_en" = _ := c.seen_put_self .blockingEnabled v
    simp [AppConfig.record, Setting.store, other, stored, Setting.encode, NvsValue.u8?]
  | _ => simp [AppConfig.record, Setting.store, own, other, raw]

/-- Reads see what is written. -/
def FlashAnswer.shows (answer : FlashAnswer) : Bool := answer.set == .ok || answer.written

/-- What a call of a setter does to the record. -/
theorem Setting.record_set {c : AppConfig} (s : Setting) (answer : FlashAnswer) (v : s.Value) :
    (s.set answer v c).2.record =
      if c.refuses (s.encode v) = false ∧ answer.shows = true then s.store v c.record else c.record := by
  rw [s.set_eq]
  cases tried : c.refuses (s.encode v) with
  | true =>
    obtain ⟨err, -, same⟩ := setKey_refused answer tried
    rw [same, if_neg (by simp)]
  | false =>
    rw [setKey_tried answer tried, ← c.record_put]
    by_cases ok : answer.set = .ok
    · have shown : answer.shows = true := by simp [FlashAnswer.shows, ok]
      simp only [if_pos ok, shown, and_self, if_true]
      split <;> rfl
    · rw [if_neg ok]
      by_cases written : answer.written = true
      · have shown : answer.shows = true := by simp [FlashAnswer.shows, written]
        simp only [if_pos written, shown, and_self, if_true]
      · have hidden : answer.shows = false := by simp [FlashAnswer.shows, ok, written]
        simp [written, hidden]

/-- An initialized namespace, and the record for it. -/
structure Refines (c : AppConfig) (nvs : Nvs) : Prop where
  opened : c.sHandle = true
  wellTyped : c.WellTyped
  record : c.record = nvs

namespace Refines

variable {c : AppConfig} {nvs : Nvs}

/-- A call of a setter: the record changes if reads see what is written. -/
theorem set (refines : Refines c nvs) (s : Setting) (answer : FlashAnswer) (v : s.Value) :
    Refines (s.set answer v c).2 (if (s.encode v).tooLong = false ∧ answer.shows = true then s.store v nvs else nvs) := by
  have shape := (s.set_outcome answer v c).2
  refine ⟨shape.sHandle.trans refines.opened, shape.wellTyped refines.wellTyped, ?_⟩
  rw [s.record_set, refines.record]
  simp [AppConfig.refuses, refines.opened]

/-! ## What the programs read -/

theorem bloomActiveSlot (refines : Refines c nvs) : appConfigGetBloomActiveSlot c = nvs.bloomActiveSlot := by
  rw [← refines.record]
  exact Setting.bloomActiveSlot.get_open refines.opened refines.wellTyped

theorem exactListActiveSlot (refines : Refines c nvs) : appConfigGetExactListActiveSlot c = nvs.exactListActiveSlot := by
  rw [← refines.record]
  exact Setting.exactListActiveSlot.get_open refines.opened refines.wellTyped

theorem policy (refines : Refines c nvs) : appConfigGetBlockPolicy c = nvs.policy := by
  rw [← refines.record]
  exact Setting.blockPolicy.get_open refines.opened refines.wellTyped

theorem upstream1 (refines : Refines c nvs) : appConfigGetUpstream1 c = nvs.upstream1.getD 0x01010101#32 := by
  rw [← refines.record]
  exact Setting.upstream1.get_open refines.opened refines.wellTyped

theorem upstream2 (refines : Refines c nvs) : appConfigGetUpstream2 c = nvs.upstream2.getD 0x08080808#32 := by
  rw [← refines.record]
  exact Setting.upstream2.get_open refines.opened refines.wellTyped

theorem blockingEnabled (refines : Refines c nvs) : appConfigGetBlockingEnabled c = nvs.blockingEnabled := by
  have bytes : ∀ value, c.seen "block_en" = some value → value.u8?.isSome := fun value stored => by
    simpa [Setting.decode] using refines.wellTyped.seen .blockingEnabled value stored
  rw [← refines.record, appConfigGetBlockingEnabled, getNumber_open refines.opened bytes]
  rfl

end Refines

end EspAdblocker.Config
