import EspAdblocker.Lib.Tasks
import EspAdblocker.Web.Periodic

/-!
# The board

The tasks around the Ethernet interface and the two firmware slots: `eth_init.c`,
`fw_updater.c`, and the updates that the web UI starts, of the firmware and of the
blocklist. They share the interface, the event group, the slots and the heap
(`Board`) and take turns operation by operation with each other, with the event loop
and with the network. Two slots and a boot loader that gives an image one boot to
prove itself are ESP-IDF's; the boot loader is a parameter, of which only what is
documented is used (`Bootloader.Documented`).
-/

namespace EspAdblocker.Firmware

open EspAdblocker.Lib EspAdblocker.Storage EspAdblocker.Web

/-- A firmware image. -/
abbrev Image := List Byte

/-! ## The slots -/

/-- `esp_ota_img_states_t`. -/
inductive ImgState where
  | new
  | pendingVerify
  | valid
  | invalid
  | aborted
  | undefined
  deriving DecidableEq, Repr

/-- An image that needs no further proof: marked valid, or never subject to a rollback. -/
def ImgState.Confirmed (s : ImgState) : Prop := s = .valid ∨ s = .undefined

/-- What the first boot of an image makes of its state. -/
def ImgState.started : ImgState → ImgState
  | .new => .pendingVerify
  | s => s

/-- `ota_0`, `ota_1` and `otadata`: the image of a slot, if it holds a whole one, its state,
and the slot that is selected for the next boot. -/
structure Apps where
  image : Half → Option Image
  state : Half → ImgState
  selected : Half

namespace Apps

/-- The slot can be booted from. -/
def Bootable (a : Apps) (h : Half) : Prop :=
  a.image h ≠ none ∧ (a.state h = .new ∨ (a.state h).Confirmed)

/-- The slot holds a confirmed image. -/
def Sure (a : Apps) (h : Half) : Prop := a.image h ≠ none ∧ (a.state h).Confirmed

/-- While an update is written from slot `h`, the other slot holds no whole image. -/
structure Writing (h : Half) (a a' : Apps) : Prop where
  image : a'.image h = a.image h
  state : a'.state h = a.state h
  gone : a'.image h.other = none
  selected : a'.selected = a.selected ∨ a'.selected = h

/-- The update is whole, and the next boot is to use it. -/
def install (a : Apps) (h : Half) (i : Image) : Apps where
  image := Function.update a.image h.other (some i)
  state := Function.update a.state h.other .new
  selected := h.other

/-- The image in slot `h` needs no further proof. -/
def markValid (a : Apps) (h : Half) : Apps := { a with state := Function.update a.state h .valid }

end Apps

/-- A boot loader: from the slots, the one it boots and what it leaves. -/
abbrev Bootloader := Apps → Half × Apps

/-- What ESP-IDF documents of its boot loader with `CONFIG_BOOTLOADER_APP_ROLLBACK_ENABLE`: the
selected slot is booted if it can be, a new image on probation; otherwise, as after a boot
on probation that nobody confirmed, the other slot, if what it holds is confirmed. -/
structure Bootloader.Documented (boot : Bootloader) : Prop where
  selected : ∀ a, a.Bootable a.selected →
    boot a = (a.selected, { a with state := Function.update a.state a.selected (a.state a.selected).started })
  rollback : ∀ a, ¬ a.Bootable a.selected → a.Sure a.selected.other →
    (boot a).1 = a.selected.other ∧ (boot a).2.image = a.image ∧
      (boot a).2.state a.selected.other = a.state a.selected.other ∧ ¬ (boot a).2.Bootable a.selected

/-! ## State -/

/-- `esp_netif_dns_type_t`, of which the fallback fills two. -/
inductive DnsSlot where
  | main
  | backup
  deriving DecidableEq, Repr

/-- The two updates that the web UI starts. -/
inductive Update where
  | blocklist
  | firmware
  deriving DecidableEq, Repr

/-- The tasks, and the handlers that the event loop and the server run. An update is handed the
heap block that holds its URL. -/
inductive Job where
  | main
  | gotIp
  | confirmBoot
  | post (u : Update)
  | update (u : Update) (block : Nat)
  deriving DecidableEq, Repr

/-- What has happened to the board. -/
inductive Happening where
  | booted (i : Image)
  /-- The network gave an address. -/
  | leased
  /-- A static address was set. -/
  | assigned
  /-- The fallback left a resolver slot empty, or the network took its resolver away. -/
  | left (slot : DnsSlot)
  | installed (i : Image)
  | confirmed (i : Image)
  /-- The web UI was asked for an update, with the stored URL. -/
  | requested (u : Update) (url : List Byte)
  /-- An update has begun, from what its copy of the URL held. -/
  | updating (u : Update) (url : List Byte)
  /-- A copy was used or freed that was not there. -/
  | misused
  deriving DecidableEq, Repr

/-- The board. -/
structure Board where
  apps : Apps
  running : Half
  nvs : Nvs := {}
  /-- Ticks since the boot. -/
  now : Nat := 0
  sEthHandle : Bool := false
  /-- The event group, if it was created, and `ETH_INIT_GOT_IP_BIT` in it. -/
  sEventGroup : Option Bool := none
  /-- `got_ip_event_handler` is registered. -/
  listening : Bool := false
  /-- The Ethernet driver was started. -/
  started : Bool := false
  /-- The resolvers of the interface, 0 where there is none. -/
  servers : DnsSlot → BitVec 32 := fun _ => 0#32
  /-- The copies of URLs on the heap. -/
  copies : Nat → Option (List Byte) := fun _ => none
  /-- Who is to free each copy; no program reads it. -/
  owners : Nat → Option Job := fun _ => none
  /-- How often each task was created, or event posted, and has not begun. -/
  jobs : Job → Nat := Function.update (fun _ => 0) .main 1
  /-- What has happened, newest first; no program reads it. -/
  log : List Happening := []

namespace Board

/-- Something has happened. -/
def record (b : Board) (e : Happening) : Board := { b with log := e :: b.log }

/-- One more, or one less, of a task to begin. -/
def withJobs (b : Board) (job : Job) (n : Nat) : Board := { b with jobs := Function.update b.jobs job n }

/-- A copy is made, or freed. -/
def withCopy (b : Board) (block : Nat) (url : Option (List Byte)) (owner : Option Job) : Board := { b with
  copies := Function.update b.copies block url
  owners := Function.update b.owners block owner }

/-- One more of an update to begin, which takes over the copy of its URL. -/
def handOver (b : Board) (u : Update) (block : Nat) : Board := { b with
  owners := Function.update b.owners block (some (.update u block))
  jobs := Function.update b.jobs (.update u block) (b.jobs (.update u block) + 1) }

/-- An update begins with what its copy holds. -/
def useCopy (b : Board) (u : Update) (block : Nat) : Board :=
  match b.copies block with
  | some url => b.record (.updating u url)
  | none => b.record .misused

/-- A handler has read a URL, or has none to update from. -/
def readUrl (b : Board) (u : Update) : Except Fault (Response × Option (List Byte)) → Board
  | .ok (_, some url) => b.record (.requested u url)
  | _ => b

/-- The board after a restart: what it stores, as the boot loader leaves it. -/
def restart (boot : Bootloader) (b : Board) : Board where
  apps := (boot b.apps).2
  running := (boot b.apps).1
  nvs := b.nvs
  log := .booted (((boot b.apps).2.image (boot b.apps).1).getD []) :: b.log

end Board

/-! ## Operations -/

/-- The calls of `eth_init_start` of which only the result matters here. -/
inductive BringUp where
  | gpioInstallIsrService
  | spiBusInitialize
  | espEfuseMacGetDefault
  | espEthIoctlSetMac
  | espNetifSetHostname
  | espNetifAttach
  | registerEthEvent
  | registerGotIp6
  | espNetifDhcpcStop
  | mdnsInit
  | espNetifSntpInit
  deriving DecidableEq, Repr

/-- What the tasks do to the board. -/
inductive BoardOp where
  /-- The scheduler, the event loop or the server begins the task. -/
  | begin (job : Job)
  | createConfirmBoot
  /-- `xTaskCreate` of an update, with the block as its argument. -/
  | createUpdate (u : Update) (block : Nat)
  /-- A handler of `web_ui.c` up to what it does with its URL. -/
  | readUrl (u : Update)
  | strdup (u : Update) (url : List Byte)
  | free (block : Nat)
  | readEthHandle
  | readEventGroup
  | xEventGroupCreate
  | bringUp (call : BringUp)
  | espEthMacNewW5500
  | espEthPhyNewW5500
  | espEthDriverInstall
  | registerGotIp
  | appConfigGetNetMode
  | appConfigGetStaticIp
  | appConfigGetUpstream (slot : DnsSlot)
  | espNetifSetIpInfo (info : IpInfo)
  | espNetifGetDnsInfo (slot : DnsSlot)
  | espNetifSetDnsInfo (slot : DnsSlot) (addr : BitVec 32)
  | espEthStart
  | xEventGroupSetBits
  /-- When a wait of that many ticks ends. -/
  | deadline (ticks : Nat)
  /-- `xEventGroupWaitBits`, up to that time. -/
  | waitBits (deadline : Nat)
  | espOtaGetStatePartition
  | espOtaMarkAppValid
  /-- `esp_https_ota` reads the URL, reaches the server and begins to write. -/
  | otaBegin (block : Nat)
  /-- `esp_https_ota` has checked the image and selects it. -/
  | otaEnd
  | espRestart
  | blocklistUpdaterCheckAndApply (block : Nat)
  /-- Undefined behaviour; the task does not go on. -/
  | abort (fault : Fault)

/-- What an operation returns. -/
@[reducible] def BoardRes : BoardOp → Type
  | .begin _ | .free _ | .xEventGroupSetBits | .espOtaMarkAppValid => Unit
  | .createConfirmBoot | .createUpdate _ _ => Bool
  | .readUrl _ => Except Fault (Response × Option (List Byte))
  | .strdup _ _ => Option Nat
  | .readEthHandle | .readEventGroup | .xEventGroupCreate | .espEthMacNewW5500 | .espEthPhyNewW5500 => Bool
  | .bringUp _ | .espEthDriverInstall | .registerGotIp | .espNetifSetIpInfo _ | .espNetifSetDnsInfo _ _ => EspErr
  | .espEthStart | .otaBegin _ | .otaEnd | .blocklistUpdaterCheckAndApply _ => EspErr
  | .appConfigGetNetMode => BitVec 8
  | .appConfigGetStaticIp => Option IpInfo
  | .appConfigGetUpstream _ => BitVec 32
  | .espNetifGetDnsInfo _ => Option (BitVec 32)
  | .deadline _ => Nat
  | .waitBits _ => Bool
  | .espOtaGetStatePartition => Option ImgState
  | .espRestart | .abort _ => Empty

/-- `update_firmware_post_handler`: the reply, and the URL it gives to
`fw_updater_check_and_update_async`, which copies it. -/
def updateFirmwarePost (nvs : Nvs) (url : List Byte) : Except Fault (Response × Option (List Byte)) := do
  let url := (getStr nvs.fwUrl url).2
  if url.getD 0 0#8 = 0#8 then return (.error "fw_update_url is not configured", none)
  else
    let url ← bufString url
    return (.ok, some url)

/-- The handler of an update. -/
def Update.post : Update → Nvs → List Byte → Except Fault (Response × Option (List Byte))
  | .blocklist => updateBlocklistPost
  | .firmware => updateFirmwarePost

namespace Board

/-- The stored upstream that stands in for a resolver. -/
def upstream (b : Board) : DnsSlot → BitVec 32
  | .main => b.nvs.upstream1.getD 0x01010101#32
  | .backup => b.nvs.upstream2.getD 0x08080808#32

/-- What an operation may return and leave behind. An image on probation cannot write an update. -/
def step (b : Board) : (op : BoardOp) → BoardRes op → Board → Prop
  | .begin job, _, b' => 0 < b.jobs job ∧ b' = b.withJobs job (b.jobs job - 1)
  | .createConfirmBoot, r, b' => b' = if r = true then b.withJobs .confirmBoot (b.jobs .confirmBoot + 1) else b
  | .createUpdate u block, r, b' => b' = if r = true then b.handOver u block else b
  | .readUrl u, r, b' =>
    ∃ junk : List Byte, junk.length = maxUrlFieldLen ∧ r = u.post b.nvs junk ∧ b' = b.readUrl u r
  | .strdup u url, r, b' =>
    match r with
    | none => b' = b
    | some block => b.copies block = none ∧ b' = b.withCopy block (some url) (some (.post u))
  | .free block, _, b' =>
    b' = if b.copies block = none then b.record .misused else b.withCopy block none none
  | .readEthHandle, r, b' => r = b.sEthHandle ∧ b' = b
  | .readEventGroup, r, b' => r = b.sEventGroup.isSome ∧ b' = b
  | .xEventGroupCreate, r, b' => b' = { b with sEventGroup := if r = true then some false else none }
  | .bringUp _, _, b' | .espEthMacNewW5500, _, b' | .espEthPhyNewW5500, _, b' => b' = b
  | .espEthDriverInstall, r, b' => b' = if r = EspErr.ok then { b with sEthHandle := true } else b
  | .registerGotIp, r, b' => b' = if r = EspErr.ok then { b with listening := true } else b
  | .appConfigGetNetMode, r, b' => r = b.nvs.netMode.getD 0#8 ∧ b' = b
  | .appConfigGetStaticIp, r, b' => r = b.nvs.staticIp ∧ b' = b
  | .appConfigGetUpstream slot, r, b' => r = b.upstream slot ∧ b' = b
  | .espNetifSetIpInfo _, r, b' => b' = if r = EspErr.ok then b.record .assigned else b
  | .espNetifGetDnsInfo slot, r, b' => (r = none ∨ r = some (b.servers slot)) ∧ b' = b
  | .espNetifSetDnsInfo slot addr, r, b' =>
    b' = if r = EspErr.ok ∧ addr ≠ 0#32 then { b with servers := Function.update b.servers slot addr }
      else if r = EspErr.ok then { b with servers := Function.update b.servers slot addr, log := .left slot :: b.log }
      else b.record (.left slot)
  | .espEthStart, r, b' => b' = if r = EspErr.ok then { b with started := true } else b
  | .xEventGroupSetBits, _, b' => b' = { b with sEventGroup := b.sEventGroup.map fun _ => true }
  | .deadline ticks, r, b' => r = b.now + ticks ∧ b' = b
  | .waitBits deadline, r, b' => (r = true ↔ b.sEventGroup = some true) ∧ (r = true ∨ deadline ≤ b.now) ∧ b' = b
  | .espOtaGetStatePartition, r, b' => (r = none ∨ r = some (b.apps.state b.running)) ∧ b' = b
  | .espOtaMarkAppValid, _, b' =>
    b' = b ∨ ∃ i, b.apps.image b.running = some i ∧
      b' = { b with apps := b.apps.markValid b.running, log := .confirmed i :: b.log }
  | .otaBegin block, r, b' =>
    r ≠ EspErr.ok ∧ b' = b.useCopy .firmware block ∨
      b.apps.state b.running ≠ .pendingVerify ∧ ∃ a, b.apps.Writing b.running a ∧
        b' = { b.useCopy .firmware block with apps := a }
  | .otaEnd, r, b' =>
    if r = EspErr.ok then ∃ i, b' = { b with apps := b.apps.install b.running i, log := .installed i :: b.log }
    else ∃ a, b.apps.Writing b.running a ∧ b' = { b with apps := a }
  | .espRestart, r, _ | .abort _, r, _ => r.elim
  | .blocklistUpdaterCheckAndApply block, _, b' => b' = b.useCopy .blocklist block

/-- The slots that lose their resolver to others the network gives. -/
def lost (b : Board) (servers : DnsSlot → BitVec 32) : List DnsSlot :=
  [.main, .backup].filter fun slot => servers slot = 0#32 ∧ b.servers slot ≠ 0#32

/-- What happens besides: time passes, settings are saved, the network gives an address and
the resolvers it knows of, and browsers ask for updates. -/
inductive Other : Board → Board → Prop where
  | tick {b : Board} (n : Nat) : Other b { b with now := b.now + n }
  | saved {b : Board} (nvs : Nvs) : Other b { b with nvs := nvs }
  | lease {b : Board} (servers : DnsSlot → BitVec 32) (posted : Bool) : b.started = true → (posted = true → b.listening = true) →
      Other b { b with
        servers := servers
        jobs := if posted then Function.update b.jobs .gotIp (b.jobs .gotIp + 1) else b.jobs
        log := .leased :: ((b.lost servers).map .left ++ b.log) }
  | request {b : Board} (u : Update) : Other b (b.withJobs (.post u) (b.jobs (.post u) + 1))

end Board

/-- The semantics of the operations. -/
def boardSem : Sem BoardOp BoardRes Board where
  step := Board.step
  torn b _ b' := b' = b

/-- A program of a task. -/
abbrev BoardM := Prog BoardOp BoardRes

/-- One operation. -/
abbrev perform (op : BoardOp) : BoardM (BoardRes op) := Prog.perform op

/-! ## `eth_init.c` -/

/-- One turn of the loop of `apply_dns_fallback_if_unset`. -/
def fallbackFor (slot : DnsSlot) (upstream : BitVec 32) : BoardM Unit := do
  let info ← perform (.espNetifGetDnsInfo slot)
  if info ≠ none ∧ info ≠ some 0#32 then return ()
  else
    let _ ← perform (.espNetifSetDnsInfo slot upstream)
    return ()

/-- `apply_dns_fallback_if_unset`. -/
def applyDnsFallbackIfUnset : BoardM Unit := do
  let upstream1 ← perform (.appConfigGetUpstream .main)
  let upstream2 ← perform (.appConfigGetUpstream .backup)
  fallbackFor .main upstream1
  fallbackFor .backup upstream2

/-- `got_ip_event_handler`. -/
def gotIpEventHandler : BoardM Unit := do
  applyDnsFallbackIfUnset
  if ← perform .readEventGroup then perform .xEventGroupSetBits else return ()

/-- `eth_init_start` from the start of the driver on. -/
def startDriver : BoardM EspErr := do
  let err ← perform .espEthStart
  if err ≠ .ok then return err
  else
    let _ ← perform (.bringUp .mdnsInit)
    let _ ← perform (.bringUp .espNetifSntpInit)
    return .ok

/-- `eth_init_start` from the choice of the address on. `APP_CONFIG_NET_STATIC` is 1. -/
def chooseAddress : BoardM EspErr := do
  let mode ← perform .appConfigGetNetMode
  if mode = 1#8 then
    match ← perform .appConfigGetStaticIp with
    | none => startDriver
    | some info =>
      let err ← perform (.bringUp .espNetifDhcpcStop)
      if err ≠ .ok then return err
      else
        let err ← perform (.espNetifSetIpInfo info)
        if err ≠ .ok then return err
        else
          applyDnsFallbackIfUnset
          let _ ← perform .xEventGroupSetBits
          startDriver
  else startDriver

/-- `eth_init_start` once the driver is installed: the interface, its names and handlers. -/
def attachInterface : BoardM EspErr := do
  let err ← perform (.bringUp .espEfuseMacGetDefault)
  if err ≠ .ok then return err
  else
    let err ← perform (.bringUp .espEthIoctlSetMac)
    if err ≠ .ok then return err
    else
      let err ← perform (.bringUp .espNetifSetHostname)
      if err ≠ .ok then return err
      else
        let err ← perform (.bringUp .espNetifAttach)
        if err ≠ .ok then return err
        else
          let err ← perform (.bringUp .registerEthEvent)
          if err ≠ .ok then return err
          else
            let err ← perform .registerGotIp
            if err ≠ .ok then return err
            else
              let err ← perform (.bringUp .registerGotIp6)
              if err ≠ .ok then return err else chooseAddress

/-- `eth_init_start` once there is an event group: the bus and the driver. -/
def installDriver : BoardM EspErr := do
  let isrErr ← perform (.bringUp .gpioInstallIsrService)
  if isrErr ≠ .ok ∧ isrErr ≠ .invalidState then return isrErr
  else
    let err ← perform (.bringUp .spiBusInitialize)
    if err ≠ .ok then return err
    else
      let mac ← perform .espEthMacNewW5500
      if mac = false then return .fail
      else
        let phy ← perform .espEthPhyNewW5500
        if phy = false then return .fail
        else
          let err ← perform .espEthDriverInstall
          if err ≠ .ok then return err else attachInterface

/-- `eth_init_start`. -/
def ethInitStart : BoardM EspErr := do
  let installed ← perform .readEthHandle
  if installed then return .invalidState
  else
    let created ← perform .xEventGroupCreate
    if created then installDriver else return .noMem

/-- `eth_init_wait_for_ip`. -/
def ethInitWaitForIp (timeout : BitVec 32) : BoardM Bool := do
  if ← perform .readEventGroup then
    let deadline ← perform (.deadline timeout.toNat)
    perform (.waitBits deadline)
  else return false

/-! ## `fw_updater.c` -/

/-- `CONFIRM_BOOT_TIMEOUT_MS`. -/
def confirmBootTimeoutMs : BitVec 32 := 30000#32

/-- `confirm_boot_task`, at a tick rate of `hz`. -/
def confirmBootTask (hz : BitVec 32) : BoardM Unit := do
  let state ← perform .espOtaGetStatePartition
  if state = some .pendingVerify then
    if ← ethInitWaitForIp (pdMsToTicks hz confirmBootTimeoutMs) then perform .espOtaMarkAppValid else return ()
  else return ()

/-- `fw_updater_confirm_boot_if_healthy`. -/
def fwUpdaterConfirmBootIfHealthy : BoardM Unit := do
  let _ ← perform .createConfirmBoot
  return ()

/-- `esp_https_ota` of the URL in a block: other tasks go on while it writes. -/
def espHttpsOta (block : Nat) : BoardM EspErr := do
  let err ← perform (.otaBegin block)
  if err = .ok then perform .otaEnd else return err

/-- `fw_updater_check_and_update`, which returns only when it fails. -/
def fwUpdaterCheckAndUpdate (block : Nat) : BoardM EspErr := do
  let err ← espHttpsOta block
  if err ≠ .ok then return err
  else
    let impossible ← perform .espRestart
    impossible.elim

/-- `async_update_task`. -/
def asyncUpdateTask (block : Nat) : BoardM Unit := do
  let _ ← fwUpdaterCheckAndUpdate block
  perform (.free block)

/-! ## The updates of the web UI -/

/-- `blocklist_updater_check_and_apply_async` and `fw_updater_check_and_update_async`: the task is given
a copy of the URL. -/
def startAsync (u : Update) (url : List Byte) : BoardM Unit := do
  match ← perform (.strdup u url) with
  | none => return ()
  | some block =>
    let created ← perform (.createUpdate u block)
    if created then return () else perform (.free block)

/-- `blocklist_updater_check_and_apply_async`. -/
def blocklistUpdaterCheckAndApplyAsync (url : List Byte) : BoardM Unit := startAsync .blocklist url

/-- `fw_updater_check_and_update_async`. -/
def fwUpdaterCheckAndUpdateAsync (url : List Byte) : BoardM Unit := startAsync .firmware url

/-- The asynchronous call of an update. -/
def Update.async : Update → List Byte → BoardM Unit
  | .blocklist => blocklistUpdaterCheckAndApplyAsync
  | .firmware => fwUpdaterCheckAndUpdateAsync

/-- `update_blocklist_post_handler` and `update_firmware_post_handler`, but for the reply. -/
def postHandler (u : Update) : BoardM Unit := do
  match ← perform (.readUrl u) with
  | .error fault =>
    let impossible ← perform (.abort fault)
    impossible.elim
  | .ok (_, none) => return ()
  | .ok (_, some url) => u.async url

/-- `async_task` of `blocklist_updater.c`. -/
def asyncTask (hz : BitVec 32) (block : Nat) : BoardM Unit := do
  if ← ethInitWaitForIp (pdMsToTicks hz asyncNetworkWaitMs) then
    let _ ← perform (.blocklistUpdaterCheckAndApply block)
    perform (.free block)
  else perform (.free block)

/-! ## Tasks -/

/-- What `app_main` does to the board: it goes on when the interface cannot be brought up. -/
def appMain : BoardM Unit := do
  let _ ← ethInitStart
  fwUpdaterConfirmBootIfHealthy

/-- The task of an update. -/
def Update.task (hz : BitVec 32) : Update → Nat → BoardM Unit
  | .blocklist => asyncTask hz
  | .firmware => asyncUpdateTask

/-- The body of a task. -/
def body (hz : BitVec 32) : Job → BoardM Unit
  | .main => appMain
  | .gotIp => gotIpEventHandler
  | .confirmBoot => confirmBootTask hz
  | .post u => postHandler u
  | .update u block => u.task hz block

/-- A task, from its creation on. -/
def launch (hz : BitVec 32) (job : Job) : BoardM Unit := do
  perform (.begin job)
  body hz job

/-- The tasks of the board. -/
abbrev System := Tasks Job BoardOp BoardRes Board Unit

end EspAdblocker.Firmware
