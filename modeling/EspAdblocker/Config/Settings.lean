import EspAdblocker.Config.AppConfig
import EspAdblocker.Lib.Registers

/-!
# The settings as registers

Each pair of a getter and a setter of `app_config.c` uses one key, under one type,
that no other pair uses, and what the setter encodes the getter decodes. So the
namespace is a family of registers, and each getter returns a value that the
writes so far leave readable, or its default (`settings_are_registers`), whatever
writes fail and whenever the device restarts.
-/

namespace EspAdblocker.Config

open EspAdblocker.Lib EspAdblocker.Storage

/-- The settings. -/
inductive Setting where
  | netMode
  | staticIp
  | upstream1
  | upstream2
  | blockPolicy
  | blockingEnabled
  | blocklistUrl
  | refreshIntervalHours
  | bloomActiveSlot
  | fwUpdateUrl
  | exactListActiveSlot
  | allowlist
  deriving DecidableEq, Repr

namespace Setting

/-- The values of a setting. -/
abbrev Value : Setting → Type
  | netMode | blockPolicy | bloomActiveSlot | exactListActiveSlot => BitVec 8
  | upstream1 | upstream2 | refreshIntervalHours => BitVec 32
  | blockingEnabled => Bool
  | staticIp => IpInfo
  | blocklistUrl | fwUpdateUrl | allowlist => CString

/-- What the getter of a setting returns; that of a string fills a buffer. -/
abbrev Reply : Setting → Type
  | netMode | blockPolicy | bloomActiveSlot | exactListActiveSlot => BitVec 8
  | upstream1 | upstream2 | refreshIntervalHours => BitVec 32
  | blockingEnabled => Bool
  | staticIp => EspErr × IpInfo
  | blocklistUrl | fwUpdateUrl | allowlist => List Byte → EspErr × List Byte

/-- The getter of a setting. -/
def get : (s : Setting) → AppConfig → s.Reply
  | netMode, c => appConfigGetNetMode c
  | staticIp, c => appConfigGetStaticIp c
  | upstream1, c => appConfigGetUpstream1 c
  | upstream2, c => appConfigGetUpstream2 c
  | blockPolicy, c => appConfigGetBlockPolicy c
  | blockingEnabled, c => appConfigGetBlockingEnabled c
  | blocklistUrl, c => fun outBuf => appConfigGetBlocklistUrl outBuf c
  | refreshIntervalHours, c => appConfigGetBlocklistRefreshIntervalHours c
  | bloomActiveSlot, c => appConfigGetBloomActiveSlot c
  | fwUpdateUrl, c => fun outBuf => appConfigGetFwUpdateUrl outBuf c
  | exactListActiveSlot, c => appConfigGetExactListActiveSlot c
  | allowlist, c => fun outBuf => appConfigGetAllowlist outBuf c

/-- The setter of a setting. -/
def set : (s : Setting) → FlashAnswer → s.Value → AppConfig → EspErr × AppConfig
  | netMode, answer, v => appConfigSetNetMode answer v.toInt
  | staticIp, answer, v => appConfigSetStaticIp answer v
  | upstream1, answer, v => appConfigSetUpstream1 answer v
  | upstream2, answer, v => appConfigSetUpstream2 answer v
  | blockPolicy, answer, v => appConfigSetBlockPolicy answer v.toInt
  | blockingEnabled, answer, v => appConfigSetBlockingEnabled answer v
  | blocklistUrl, answer, v => appConfigSetBlocklistUrl answer v
  | refreshIntervalHours, answer, v => appConfigSetBlocklistRefreshIntervalHours answer v
  | bloomActiveSlot, answer, v => appConfigSetBloomActiveSlot answer v
  | fwUpdateUrl, answer, v => appConfigSetFwUpdateUrl answer v
  | exactListActiveSlot, answer, v => appConfigSetExactListActiveSlot answer v
  | allowlist, answer, v => appConfigSetAllowlist answer v

/-! ## One key for each setting -/

/-- The key of a setting. -/
def key : Setting → String
  | netMode => "net_mode"
  | staticIp => "static_ip"
  | upstream1 => "upstream1"
  | upstream2 => "upstream2"
  | blockPolicy => "block_policy"
  | blockingEnabled => "block_en"
  | blocklistUrl => "blocklist_url"
  | refreshIntervalHours => "refresh_hrs"
  | bloomActiveSlot => "bloom_slot"
  | fwUpdateUrl => "fw_url"
  | exactListActiveSlot => "list_slot"
  | allowlist => "allowlist"

/-- How a setting is stored. -/
def encode : (s : Setting) → s.Value → NvsValue
  | netMode, v | blockPolicy, v | bloomActiveSlot, v | exactListActiveSlot, v => .u8 v
  | upstream1, v | upstream2, v | refreshIntervalHours, v => .u32 v
  | blockingEnabled, v => .u8 (if v then 1#8 else 0#8)
  | staticIp, v => .blob (ipInfoBytes v)
  | blocklistUrl, v | fwUpdateUrl, v | allowlist, v => .str v

/-- A structure from a blob of at most its size. -/
def ipInfoOfBlob (bytes : List Byte) : Option IpInfo :=
  if bytes.length ≤ 12 then some (ipInfoOf (bytes ++ List.replicate (12 - bytes.length) 0#8)) else none

/-- What is stored, as a value of the setting. -/
def decode : (s : Setting) → NvsValue → Option s.Value
  | netMode, value | blockPolicy, value | bloomActiveSlot, value | exactListActiveSlot, value => value.u8?
  | upstream1, value | upstream2, value | refreshIntervalHours, value => value.u32?
  | blockingEnabled, value => value.u8?.map (· != 0#8)
  | staticIp, value => value.blob?.bind ipInfoOfBlob
  | blocklistUrl, value | fwUpdateUrl, value | allowlist, value => value.str?

theorem key_injective {s t : Setting} (same : s.key = t.key) : s = t := by
  cases s <;> cases t <;> first | rfl | exact absurd same (by decide)

/-- No key is longer than NVS allows. -/
theorem length_key (s : Setting) : s.key.length ≤ 15 := by
  cases s <;> decide

theorem length_ipInfoBytes (info : IpInfo) : (ipInfoBytes info).length = 12 := length_packFields _

/-- The structure is read back from its bytes. -/
theorem ipInfoOfBlob_ipInfoBytes (info : IpInfo) : ipInfoOfBlob (ipInfoBytes info) = some info := by
  have size := length_ipInfoBytes info
  obtain ⟨ip, netmask, gw⟩ := info
  have field (v : BitVec 32) (before after : List (Nat × Nat)) :
      readLe 32 (packFields (before ++ (4, v.toNat) :: after) ++ []) (before.map Prod.fst).sum = v := by
    have read := readLe_packFields 32 v.toNat before after [] (by decide) v.isLt
    rwa [BitVec.ofNat_toNat, BitVec.setWidth_eq] at read
  rw [ipInfoOfBlob, if_pos (Nat.le_of_eq size), size, Nat.sub_self, List.replicate_zero, ipInfoOf, ipInfoBytes]
  congr 2
  · exact field ip [] [(4, netmask.toNat), (4, gw.toNat)]
  · exact field netmask [(4, ip.toNat)] [(4, gw.toNat)]
  · exact field gw [(4, ip.toNat), (4, netmask.toNat)] []

/-- **What a setter encodes its getter decodes.** -/
theorem decode_encode (s : Setting) (v : s.Value) : s.decode (s.encode v) = some v := by
  cases s with
  | staticIp => exact ipInfoOfBlob_ipInfoBytes v
  | blockingEnabled => cases v <;> rfl
  | _ => rfl

/-- The setters differ in their key and encoding only. -/
theorem set_eq (s : Setting) (answer : FlashAnswer) (v : s.Value) :
    s.set answer v = setKey answer s.key (s.encode v) := by
  cases s with
  | netMode => exact congrArg (fun n => setKey answer "net_mode" (.u8 n)) BitVec.ofInt_toInt
  | blockPolicy => exact congrArg (fun n => setKey answer "block_policy" (.u8 n)) BitVec.ofInt_toInt
  | _ => rfl

end Setting

/-! ## The registers -/

/-- The namespace, as registers: a key that was never written holds nothing. -/
def AppConfig.registers (c : AppConfig) : Cached fun s : Setting => Option s.Value where
  seen s := (c.seen s.key).bind s.decode
  durable s := (c.durable s.key).bind s.decode

/-- The keys of the settings hold values of their types. -/
structure AppConfig.WellTyped (c : AppConfig) : Prop where
  seen : ∀ (s : Setting) value, c.seen s.key = some value → (s.decode value).isSome
  durable : ∀ (s : Setting) value, c.durable s.key = some value → (s.decode value).isSome

/-- A string, or none, read into a buffer. -/
def fillString (stored : Option CString) (outBuf : List Byte) : EspErr × List Byte :=
  match stored with
  | none => (.ok, outBuf.set 0 0#8)
  | some text =>
    if text.val.length < outBuf.length then (.ok, text.val ++ 0#8 :: outBuf.drop (text.val.length + 1))
    else (espErrNvsInvalidLength, outBuf)

namespace Setting

/-- What the getter returns for what its register holds. -/
def reply : (s : Setting) → Option s.Value → s.Reply
  | netMode, stored | blockPolicy, stored | bloomActiveSlot, stored | exactListActiveSlot, stored => stored.getD 0#8
  | upstream1, stored => stored.getD 0x01010101#32
  | upstream2, stored => stored.getD 0x08080808#32
  | refreshIntervalHours, stored => stored.getD 24#32
  | blockingEnabled, stored => stored.getD true
  | staticIp, stored => stored.elim (espErrNvsNotFound, ⟨0#32, 0#32, 0#32⟩) fun info => (.ok, info)
  | blocklistUrl, stored | fwUpdateUrl, stored | allowlist, stored => fillString stored

/-- What the getter returns before `app_config_init`. -/
def unavailable : (s : Setting) → s.Reply
  | netMode | blockPolicy | bloomActiveSlot | exactListActiveSlot => 0#8
  | upstream1 => 0x01010101#32
  | upstream2 => 0x08080808#32
  | refreshIntervalHours => 24#32
  | blockingEnabled => true
  | staticIp => (espErrNvsInvalidHandle, ⟨0#32, 0#32, 0#32⟩)
  | blocklistUrl | fwUpdateUrl | allowlist => fun outBuf => (espErrNvsInvalidHandle, outBuf)

end Setting

section

variable {c : AppConfig} {key : String}

theorem nvsGet_closed {α : Type} (closed : c.sHandle = false) (ofValue : NvsValue → Option α) :
    nvsGet ofValue key c = .error espErrNvsInvalidHandle := by
  rw [nvsGet, if_pos closed]

/-- A read of a key that holds a value of its type, or nothing. -/
theorem nvsGet_open {α : Type} (opened : c.sHandle = true) {ofValue : NvsValue → Option α}
    (typed : ∀ value, c.seen key = some value → (ofValue value).isSome) :
    nvsGet ofValue key c = ((c.seen key).bind ofValue).elim (.error espErrNvsNotFound) .ok := by
  rw [nvsGet, if_neg (by rw [opened]; decide)]
  cases stored : c.seen key with
  | none => rfl
  | some value =>
    obtain ⟨v, read⟩ := Option.isSome_iff_exists.mp (typed value stored)
    simp only [read, Option.bind_some, Option.elim_some]

theorem getNumber_open {α : Type} (opened : c.sHandle = true) {ofValue : NvsValue → Option α}
    (typed : ∀ value, c.seen key = some value → (ofValue value).isSome) (v : α) :
    getNumber ofValue key v c = ((c.seen key).bind ofValue).getD v := by
  rw [getNumber, nvsGet_open opened typed]
  cases (c.seen key).bind ofValue <;> rfl

theorem getString_open (opened : c.sHandle = true) (typed : ∀ value, c.seen key = some value → value.str?.isSome)
    (outBuf : List Byte) : getString key outBuf c = fillString ((c.seen key).bind NvsValue.str?) outBuf := by
  rw [getString, nvsGet_open opened typed]
  cases (c.seen key).bind NvsValue.str? with
  | none => rfl
  | some text =>
    by_cases fits : text.val.length < outBuf.length
    · simp [fillString, fits, espErrNvsNotFound]
    · simp [fillString, fits, espErrNvsNotFound, espErrNvsInvalidLength]

theorem appConfigGetStaticIp_open (opened : c.sHandle = true)
    (typed : ∀ value, c.seen "static_ip" = some value → (Setting.staticIp.decode value).isSome) :
    appConfigGetStaticIp c = Setting.staticIp.reply ((c.seen "static_ip").bind Setting.staticIp.decode) := by
  have blobs : ∀ value, c.seen "static_ip" = some value → value.blob?.isSome := fun value stored => by
    obtain ⟨info, decoded⟩ := Option.isSome_iff_exists.mp (typed value stored)
    obtain ⟨bytes, blob, -⟩ := Option.bind_eq_some_iff.mp decoded
    exact Option.isSome_iff_exists.mpr ⟨bytes, blob⟩
  rw [appConfigGetStaticIp, nvsGet_open opened blobs]
  cases stored : c.seen "static_ip" with
  | none => rfl
  | some value =>
    obtain ⟨info, decoded⟩ := Option.isSome_iff_exists.mp (typed value stored)
    obtain ⟨bytes, blob, read⟩ := Option.bind_eq_some_iff.mp decoded
    rw [Option.bind_some, Option.bind_some, decoded, blob]
    have fits : bytes.length ≤ 12 := by
      by_contra long
      rw [Setting.ipInfoOfBlob, if_neg long] at read
      cases read
    rw [Setting.ipInfoOfBlob, if_pos fits, Option.some.injEq] at read
    simp only [Option.elim_some, if_pos fits, read]
    rfl

/-- **An open getter returns what its register holds.** -/
theorem Setting.get_open (s : Setting) (opened : c.sHandle = true) (typed : c.WellTyped) :
    s.get c = s.reply (c.registers.seen s) := by
  have own := typed.seen s
  cases s with
  | staticIp => exact appConfigGetStaticIp_open opened own
  | blockingEnabled =>
    have bytes : ∀ value, c.seen "block_en" = some value → value.u8?.isSome := fun value stored => by
      simpa [Setting.decode] using own value stored
    change (getNumber NvsValue.u8? "block_en" 1#8 c != 0#8) = ((c.seen "block_en").bind _).getD true
    rw [getNumber_open opened bytes]
    cases stored : c.seen "block_en" with
    | none => rfl
    | some value =>
      obtain ⟨v, read⟩ := Option.isSome_iff_exists.mp (bytes value stored)
      simp [Setting.decode, read]
  | blocklistUrl | fwUpdateUrl | allowlist => exact funext fun outBuf => getString_open opened own outBuf
  | _ => exact getNumber_open opened own _

/-- A getter before `app_config_init`. -/
theorem Setting.get_closed (s : Setting) (closed : c.sHandle = false) : s.get c = s.unavailable := by
  have number {α : Type} (ofValue : NvsValue → Option α) (key : String) (v : α) : getNumber ofValue key v c = v := by
    rw [getNumber, nvsGet_closed closed]
  have string (key : String) (outBuf : List Byte) : getString key outBuf c = (espErrNvsInvalidHandle, outBuf) := by
    rw [getString, nvsGet_closed closed]
    rfl
  cases s with
  | staticIp =>
    change appConfigGetStaticIp c = _
    rw [appConfigGetStaticIp, nvsGet_closed closed]
    rfl
  | blockingEnabled =>
    change (getNumber NvsValue.u8? "block_en" 1#8 c != 0#8) = true
    rw [number]
    rfl
  | blocklistUrl | fwUpdateUrl | allowlist => exact funext fun outBuf => string _ outBuf
  | _ => exact number ..

end

/-! ## Writes -/

/-- NVS does not even try the write. -/
def AppConfig.refuses (c : AppConfig) (value : NvsValue) : Bool := c.sHandle == false || value.tooLong

/-- What a call of a setter does to the registers, and what it returns. -/
inductive SetOutcome (s : Setting) (v : s.Value) (c : AppConfig) : EspErr × AppConfig → Prop where
  | refused {err : EspErr} : c.refuses (s.encode v) = true → err ≠ .ok → SetOutcome s v c (err, c)
  | lost {err : EspErr} : c.refuses (s.encode v) = false → err ≠ .ok → SetOutcome s v c (err, c)
  | seen {err : EspErr} {c' : AppConfig} : c.refuses (s.encode v) = false → err ≠ .ok →
      c'.registers = c.registers.write s (some v) → SetOutcome s v c (err, c')
  | lasts {c' : AppConfig} : c.refuses (s.encode v) = false →
      c'.registers = (c.registers.write s (some v)).flush → SetOutcome s v c (.ok, c')

/-- The statics stay, and so do the types. -/
structure SameShape (c c' : AppConfig) : Prop where
  sHandle : c'.sHandle = c.sHandle
  sInitialized : c'.sInitialized = c.sInitialized
  wellTyped : c.WellTyped → c'.WellTyped

/-- The namespace after a write that is seen. -/
def AppConfig.put (c : AppConfig) (s : Setting) (v : s.Value) : AppConfig :=
  { c with seen := Function.update c.seen s.key (some (s.encode v)) }

theorem AppConfig.seen_put_self (c : AppConfig) (s : Setting) (v : s.Value) : (c.put s v).seen s.key = some (s.encode v) :=
  Function.update_self ..

theorem AppConfig.seen_put_of_ne (c : AppConfig) {s t : Setting} (v : s.Value) (other : t ≠ s) :
    (c.put s v).seen t.key = c.seen t.key :=
  Function.update_of_ne (fun keys => other (Setting.key_injective keys)) ..

theorem AppConfig.registers_put (c : AppConfig) (s : Setting) (v : s.Value) :
    (c.put s v).registers = c.registers.write s (some v) := by
  have seen (t : Setting) : (c.put s v).registers.seen t = (c.registers.write s (some v)).seen t := by
    by_cases same : t = s
    · subst same
      rw [Cached.seen_write_self]
      change ((c.put t v).seen t.key).bind t.decode = some v
      rw [c.seen_put_self, Option.bind_some, t.decode_encode]
    · rw [Cached.seen_write_of_ne _ _ same]
      change ((c.put s v).seen t.key).bind t.decode = (c.seen t.key).bind t.decode
      rw [c.seen_put_of_ne v same]
  exact Cached.ext (funext seen) rfl

theorem AppConfig.sameShape_put (c : AppConfig) (s : Setting) (v : s.Value) : SameShape c (c.put s v) where
  sHandle := rfl
  sInitialized := rfl
  wellTyped typed := by
    refine ⟨fun t value stored => ?_, typed.durable⟩
    by_cases same : t = s
    · subst same
      rw [c.seen_put_self] at stored
      rw [← Option.some.inj stored, t.decode_encode]
      rfl
    · rw [c.seen_put_of_ne v same] at stored
      exact typed.seen t value stored

theorem SameShape.refl (c : AppConfig) : SameShape c c := ⟨rfl, rfl, fun typed => typed⟩

theorem setKey_refused {s : Setting} {v : s.Value} {c : AppConfig} (answer : FlashAnswer)
    (refused : c.refuses (s.encode v) = true) : ∃ err, err ≠ .ok ∧ setKey answer s.key (s.encode v) c = (err, c) := by
  have short : ¬ 15 < s.key.length := Nat.not_lt.mpr s.length_key
  by_cases closed : c.sHandle = false
  · refine ⟨espErrNvsInvalidHandle, by decide, ?_⟩
    rw [setKey, nvsSet, if_pos closed]
    rfl
  · have long : (s.encode v).tooLong = true := by simpa [AppConfig.refuses, closed] using refused
    refine ⟨espErrNvsValueTooLong, by decide, ?_⟩
    rw [setKey, nvsSet, if_neg closed, if_neg short, if_pos long]
    rfl

theorem setKey_tried {s : Setting} {v : s.Value} {c : AppConfig} (answer : FlashAnswer)
    (tried : c.refuses (s.encode v) = false) : setKey answer s.key (s.encode v) c =
      if answer.set = .ok then
        if answer.commit = .ok then (.ok, { c.put s v with durable := (c.put s v).seen }) else (answer.commit, c.put s v)
      else (answer.set, if answer.written then c.put s v else c) := by
  rw [AppConfig.refuses, Bool.or_eq_false_iff] at tried
  have opened : ¬ c.sHandle = false := by simpa using tried.1
  have short : ¬ 15 < s.key.length := Nat.not_lt.mpr s.length_key
  rw [setKey, nvsSet, if_neg opened, if_neg short, if_neg (by rw [tried.2]; decide)]
  by_cases ok : answer.set = .ok
  · rw [if_pos (.inl ok), if_pos ok]
    dsimp only
    rw [if_pos ok]
    exact if_neg opened
  · rw [if_neg ok]
    by_cases written : answer.written = true
    · rw [if_pos (.inr written), if_pos written]
      exact if_neg ok
    · rw [if_neg fun either => either.elim ok written, if_neg written]
      exact if_neg ok

/-- **What one call of a setter does.** -/
theorem Setting.set_outcome (s : Setting) (answer : FlashAnswer) (v : s.Value) (c : AppConfig) :
    SetOutcome s v c (s.set answer v c) ∧ SameShape c (s.set answer v c).2 := by
  rw [s.set_eq]
  cases tried : c.refuses (s.encode v) with
  | true =>
    obtain ⟨err, failed, same⟩ := setKey_refused answer tried
    rw [same]
    exact ⟨.refused tried failed, .refl c⟩
  | false =>
    rw [setKey_tried answer tried]
    by_cases ok : answer.set = .ok
    · rw [if_pos ok]
      by_cases committed : answer.commit = .ok
      · rw [if_pos committed]
        have typed := (c.sameShape_put s v).wellTyped
        refine ⟨.lasts tried ?_, rfl, rfl, fun wellTyped => ⟨(typed wellTyped).seen, (typed wellTyped).seen⟩⟩
        rw [← c.registers_put]
        rfl
      · rw [if_neg committed]
        exact ⟨.seen tried committed (c.registers_put s v), c.sameShape_put s v⟩
    · rw [if_neg ok]
      by_cases written : answer.written = true
      · rw [if_pos written]
        exact ⟨.seen tried ok (c.registers_put s v), c.sameShape_put s v⟩
      · rw [if_neg written]
        exact ⟨.lost tried ok, .refl c⟩

theorem AppConfig.registers_restart (c : AppConfig) (survives : String → Bool) :
    (c.restart survives).registers = c.registers.restart fun s => survives s.key := by
  have found (s : Setting) : (if survives s.key then c.seen s.key else c.durable s.key).bind s.decode =
      if survives s.key then (c.seen s.key).bind s.decode else (c.durable s.key).bind s.decode := by
    split <;> rfl
  exact Cached.ext (funext found) (funext found)

theorem AppConfig.WellTyped.restart {c : AppConfig} (typed : c.WellTyped) (survives : String → Bool) :
    (c.restart survives).WellTyped := by
  have found (s : Setting) (value : NvsValue) (stored : (if survives s.key then c.seen s.key else c.durable s.key) = some value) :
      (s.decode value).isSome := by
    split at stored
    · exact typed.seen s value stored
    · exact typed.durable s value stored
  exact ⟨found, found⟩

/-! ## Runs -/

/-- What happens to the settings. -/
inductive ConfigEvent where
  | init (opened : EspErr)
  | set (s : Setting) (answer : FlashAnswer) (v : s.Value)
  | restart (survives : String → Bool)

/-- The writes to the registers. -/
abbrev Writes := List (RegisterWrite fun s : Setting => Option s.Value)

/-- One event, and the write that NVS tries. -/
def AppConfig.step (c : AppConfig) : ConfigEvent → AppConfig × Writes
  | .init opened => ((appConfigInit opened c).2, [])
  | .set s answer v =>
    ((s.set answer v c).2, if c.refuses (s.encode v) then [] else [⟨s, some v, (s.set answer v c).1 == .ok⟩])
  | .restart survives => (c.restart survives, [])

/-- The namespace after some events, and the writes so far. -/
def AppConfig.run (c : AppConfig) (events : List ConfigEvent) : AppConfig × Writes :=
  events.foldl (fun now event => ((now.1.step event).1, now.2 ++ (now.1.step event).2)) (c, [])

/-- What is kept over a run. -/
structure Settled (initial : ∀ s : Setting, Option s.Value) (now : AppConfig × Writes) : Prop where
  wellTyped : now.1.WellTyped
  handle : now.1.sHandle = now.1.sInitialized
  tracks : Tracks initial now.2 now.1.registers

theorem Settled.step {initial : ∀ s : Setting, Option s.Value} {c : AppConfig} {history : Writes}
    (settled : Settled initial (c, history)) (event : ConfigEvent) :
    Settled initial ((c.step event).1, history ++ (c.step event).2) := by
  obtain ⟨wellTyped, handle, tracks⟩ := settled
  cases event with
  | init opened =>
    simp only [AppConfig.step, List.append_nil]
    rw [appConfigInit]
    split
    · exact ⟨wellTyped, handle, tracks⟩
    split
    · exact ⟨⟨wellTyped.seen, wellTyped.durable⟩, rfl, tracks⟩
    · exact ⟨wellTyped, handle, tracks⟩
  | set s answer v =>
    obtain ⟨outcome, shape⟩ := s.set_outcome answer v c
    refine ⟨shape.wellTyped wellTyped, shape.sHandle.trans (handle.trans shape.sInitialized.symm), ?_⟩
    simp only [AppConfig.step]
    generalize s.set answer v c = result at outcome
    cases outcome with
    | refused refused =>
      rw [if_pos refused, List.append_nil]
      exact tracks
    | lost tried failed =>
      rw [if_neg (by rw [tried]; decide), beq_false_of_ne failed]
      exact tracks.lost s (some v)
    | seen tried failed written =>
      rw [if_neg (by rw [tried]; decide), beq_false_of_ne failed, written]
      exact tracks.write s (some v)
    | lasts tried written =>
      rw [if_neg (by rw [tried]; decide), beq_self_eq_true, written]
      exact tracks.write_flush s (some v)
  | restart survives =>
    simp only [AppConfig.step, List.append_nil]
    refine ⟨wellTyped.restart survives, rfl, ?_⟩
    rw [c.registers_restart]
    exact tracks.restart _

theorem AppConfig.run_concat (c : AppConfig) (events : List ConfigEvent) (event : ConfigEvent) :
    c.run (events ++ [event]) = (((c.run events).1.step event).1, (c.run events).2 ++ ((c.run events).1.step event).2) := by
  rw [AppConfig.run, List.foldl_append]
  rfl

/-- A device that was just restarted. -/
structure AppConfig.Booted (c : AppConfig) : Prop where
  wellTyped : c.WellTyped
  committed : c.durable = c.seen
  closed : c.sHandle = false ∧ c.sInitialized = false

theorem settled_run {c : AppConfig} (booted : c.Booted) (events : List ConfigEvent) :
    Settled c.registers.seen (c.run events) := by
  induction events using List.reverseRecOn with
  | nil =>
    have same : c.registers = ⟨c.registers.seen, c.registers.seen⟩ := by
      rw [AppConfig.registers, booted.committed]
    refine ⟨booted.wellTyped, booted.closed.1.trans booted.closed.2.symm, ?_⟩
    change Tracks c.registers.seen [] c.registers
    rw [same]
    exact .start _
  | append_singleton events event ih =>
    rw [AppConfig.run_concat]
    exact Settled.step ih event

/-- **The settings are registers.** After any calls of `app_config.c` and any restarts, with
writes that fail, each getter returns what the writes of its own setting leave readable,
or what it returns of a setting that was never written: the value of the last write if that
was reported to have succeeded. Before `app_config_init` it returns its default. -/
theorem settings_are_registers {c : AppConfig} (booted : c.Booted) (events : List ConfigEvent) (s : Setting) :
    ∃ stored, Readable c.registers.seen (c.run events).2 s stored ∧
      (s.get (c.run events).1 = if (c.run events).1.sInitialized then s.reply stored else s.unavailable) ∧
      ∀ before v after, (c.run events).2 = before ++ ⟨s, some v, true⟩ :: after → (∀ w ∈ after, w.register ≠ s) →
        stored = some v := by
  have settled := settled_run booted events
  have readable := settled.tracks.seen s
  refine ⟨_, readable, ?_, fun before v after last none_later => readable.unique last none_later⟩
  cases initialized : (c.run events).1.sInitialized with
  | true => exact s.get_open (settled.handle.trans initialized) settled.wellTyped
  | false => exact s.get_closed (settled.handle.trans initialized)

/-- A device that was never configured. -/
def blankConfig : AppConfig where
  seen _ := none
  durable _ := none

/-- A resolver is set, the write of a URL fails late, and the device restarts without it. -/
def sampleEvents : List ConfigEvent :=
  [.init .ok, .set .upstream1 ⟨.ok, false, .ok⟩ 0x09090909#32,
    .set .blocklistUrl ⟨.fail, true, .ok⟩ (cString [0x68#8]), .restart fun _ => false, .init .ok]

/-- The resolver is still set. -/
theorem upstream_restarted : appConfigGetUpstream1 (blankConfig.run sampleEvents).1 = 0x09090909#32 := by
  have nothing (s : Setting) (value : NvsValue) (stored : blankConfig.seen s.key = some value) : (s.decode value).isSome := by
    cases stored
  have booted : blankConfig.Booted := ⟨⟨nothing, nothing⟩, rfl, rfl, rfl⟩
  obtain ⟨stored, -, read, last⟩ := settings_are_registers booted sampleEvents .upstream1
  have written : (blankConfig.run sampleEvents).2 = [] ++ ⟨.upstream1, some 0x09090909#32, true⟩ ::
      [⟨.blocklistUrl, some (cString [0x68#8]), false⟩] := rfl
  obtain rfl := last _ _ _ written (by simp)
  exact read

end EspAdblocker.Config
