import EspAdblocker.Web.RefreshInterval

/-!
# The refreshes of the periodic task

`periodic_task` reads the interval, waits, reads the URL, waits for the network and
updates, over and over, while others save settings at any time. Whatever they save and
however late the task is scheduled, a refresh begins no earlier than an interval that was
stored, and enabled, after the refresh before had ended; it uses a URL that was stored
when that interval was over; and after the interval is set to 0 at most one more begins
(`refreshes_follow_settings`).
-/

namespace EspAdblocker.Web

open EspAdblocker.Lib EspAdblocker.Storage

/-! ## Operations -/

/-- What the task finds when it looks: the settings and the event bit, at each tick. -/
structure Surroundings where
  nvs : Nat → Nvs
  networkUp : Nat → Bool

/-- What the task does. -/
inductive RefreshOp where
  | getBlocklistRefreshIntervalHours
  | vTaskDelay (ticks : BitVec 32)
  | getBlocklistUrl
  | ethInitWaitForIp (timeout : BitVec 32)
  | blocklistUpdaterCheckAndApply (url : List Byte)
  /-- Undefined behaviour; the run does not continue. -/
  | abort (fault : Fault)

/-- What an operation returns. -/
@[reducible] def RefreshRes : RefreshOp → Type
  | .getBlocklistRefreshIntervalHours => BitVec 32
  | .vTaskDelay _ => Unit
  | .getBlocklistUrl => List Byte
  | .ethInitWaitForIp _ => Bool
  | .blocklistUpdaterCheckAndApply _ => EspErr
  | .abort _ => Empty

/-- One refresh: when it began and ended, and its URL. -/
structure Refresh where
  begun : Nat
  ended : Nat
  url : List Byte
  deriving DecidableEq, Repr

/-- The time in ticks, and the refreshes so far, newest first. -/
structure Watch where
  now : Nat
  refreshes : List Refresh := []
  deriving DecidableEq, Repr

/-- What an operation may return and leave behind: each may be scheduled late. -/
def Watch.step (s : Surroundings) (w : Watch) : (op : RefreshOp) → RefreshRes op → Watch → Prop
  | .getBlocklistRefreshIntervalHours, r, w' => ∃ t, w.now ≤ t ∧ r = refreshIntervalHours (s.nvs t) ∧ w' = { w with now := t }
  | .vTaskDelay ticks, _, w' => ∃ t, w.now + ticks.toNat ≤ t ∧ w' = { w with now := t }
  | .getBlocklistUrl, r, w' =>
    ∃ t junk, w.now ≤ t ∧ junk.length = maxUrlLen ∧ r = (getStr (s.nvs t).blocklistUrl junk).2 ∧ w' = { w with now := t }
  | .ethInitWaitForIp timeout, r, w' =>
    ∃ t, w.now ≤ t ∧ r = s.networkUp t ∧ (r = true ∨ w.now + timeout.toNat ≤ t) ∧ w' = { w with now := t }
  | .blocklistUpdaterCheckAndApply url, _, w' =>
    ∃ begun ended, w.now ≤ begun ∧ begun ≤ ended ∧ w' = ⟨ended, ⟨begun, ended, url⟩ :: w.refreshes⟩
  | .abort _, r, _ => r.elim

/-- The semantics of the operations. -/
def refreshSem (s : Surroundings) : Sem RefreshOp RefreshRes Watch where
  step := Watch.step s
  torn w _ w' := w' = w

/-- A program of the task. -/
abbrev RefreshM := Prog RefreshOp RefreshRes

/-- One operation. -/
abbrev RefreshM.perform (op : RefreshOp) : RefreshM (RefreshRes op) := Prog.perform op

open RefreshM (perform)

/-- `ASYNC_NETWORK_WAIT_MS`. -/
def asyncNetworkWaitMs : BitVec 32 := 30000#32

/-- The body of the loop of `periodic_task`, at a tick rate of `hz`. -/
def periodicTask (hz : BitVec 32) : RefreshM Unit := do
  let hours ← perform .getBlocklistRefreshIntervalHours
  if hours = 0#32 then perform (.vTaskDelay (pdMsToTicks hz disabledRecheckIntervalMs))
  else
    let _ ← perform (.vTaskDelay (pdMsToTicks hz (refreshIntervalMs hours)))
    let url ← perform .getBlocklistUrl
    if url.getD 0 0#8 = 0#8 then return ()
    else
      let up ← perform (.ethInitWaitForIp (pdMsToTicks hz asyncNetworkWaitMs))
      if up = true then
        match bufString url with
        | .error fault =>
          let impossible ← perform (.abort fault)
          impossible.elim
        | .ok baseUrl =>
          let _ ← perform (.blocklistUpdaterCheckAndApply baseUrl)
          return ()
      else return ()

/-! ## What the settings allow -/

/-- The time the last of the refreshes ended, or when the task began. -/
def lastEnded (start : Nat) (refreshes : List Refresh) : Nat := (refreshes.head?.map Refresh.ended).getD start

/-- The refresh was due: an interval stored at some time from `since` on was enabled and is over,
the URL was stored when the task woke, and the network was up after that. -/
def Due (s : Surroundings) (hz : BitVec 32) (since : Nat) (r : Refresh) : Prop :=
  ∃ asked woken, since ≤ asked ∧ refreshIntervalHours (s.nvs asked) ≠ 0#32 ∧
    asked + (periodicDelay hz (s.nvs asked)).toNat ≤ woken ∧
    (∃ junk, junk.length = maxUrlLen ∧ (getStr (s.nvs woken).blocklistUrl junk).2.getD 0 0#8 ≠ 0#8 ∧
      bufString (getStr (s.nvs woken).blocklistUrl junk).2 = .ok r.url) ∧
    (∃ seen, woken ≤ seen ∧ seen ≤ r.begun ∧ s.networkUp seen = true) ∧ r.begun ≤ r.ended

/-- Each refresh was due after the one before. -/
def Spaced (s : Surroundings) (hz : BitVec 32) (start : Nat) : List Refresh → Prop
  | [] => True
  | r :: earlier => Due s hz (lastEnded start earlier) r ∧ Spaced s hz start earlier

section

variable {s : Surroundings} {hz : BitVec 32} {start : Nat} {w : Watch}

theorem Due.mono {since since' : Nat} {r : Refresh} (due : Due s hz since' r) (later : since ≤ since') :
    Due s hz since r := by
  obtain ⟨asked, woken, after, rest⟩ := due
  exact ⟨asked, woken, later.trans after, rest⟩

/-- One round of the loop: no refresh, or one that was due. -/
theorem periodicTask_ends (s : Surroundings) (hz : BitVec 32) (w : Watch) :
    (refreshSem s).Ends (periodicTask hz) (fun _ v => w.now ≤ v.now ∧
      (v.refreshes = w.refreshes ∨ ∃ r, v = ⟨r.ended, r :: w.refreshes⟩ ∧ Due s hz w.now r)) w := by
  unfold periodicTask
  simp only [Prog.bind_eq, Prog.perform_bind, Prog.pure_eq]
  refine Sem.ends_call fun hours v₁ asks => ?_
  obtain ⟨asked, after, rfl, rfl⟩ := asks
  split
  · refine Sem.ends_call fun _ v₂ waits => Sem.ends_ret ?_
    obtain ⟨woken, waited, rfl⟩ := waits
    exact ⟨after.trans ((Nat.le_add_right ..).trans waited), .inl rfl⟩
  rename_i enabled
  refine Sem.ends_call fun _ v₂ waits => ?_
  obtain ⟨woken, waited, rfl⟩ := waits
  have since : w.now ≤ woken := after.trans ((Nat.le_add_right ..).trans waited)
  refine Sem.ends_call fun buf v₃ reads => ?_
  obtain ⟨read, junk, later, room, rfl, rfl⟩ := reads
  split
  · exact Sem.ends_ret ⟨since.trans later, .inl rfl⟩
  rename_i configured
  refine Sem.ends_call fun up v₄ sees => ?_
  obtain ⟨seen, looked, rfl, -, rfl⟩ := sees
  split
  · rename_i there
    split
    · exact Sem.ends_call fun impossible => impossible.elim
    · rename_i baseUrl text
      refine Sem.ends_call fun err v₅ updates => Sem.ends_ret ?_
      obtain ⟨begun, ended, starts, lasts, rfl⟩ := updates
      refine ⟨?_, .inr ⟨⟨begun, ended, baseUrl⟩, rfl, asked, read, after, enabled, ?_, ?_, ?_, lasts⟩⟩
      · exact since.trans (later.trans (looked.trans (starts.trans lasts)))
      · rw [periodicDelay, if_neg enabled]
        exact waited.trans later
      · exact ⟨junk, room, configured, text⟩
      · exact ⟨seen, looked, starts, there⟩
  · exact Sem.ends_ret ⟨since.trans (later.trans looked), .inl rfl⟩

theorem Due.ended {since : Nat} {r : Refresh} (due : Due s hz since r) : since ≤ r.begun ∧ r.begun ≤ r.ended := by
  obtain ⟨asked, woken, after, -, waited, -, ⟨seen, looked, begun, -⟩, lasts⟩ := due
  exact ⟨by omega, lasts⟩

/-- No refresh ended after the last. -/
theorem Spaced.ended_le {refreshes : List Refresh} (spaced : Spaced s hz start refreshes) :
    ∀ r ∈ refreshes, r.ended ≤ lastEnded start refreshes := by
  induction refreshes with
  | nil => intro r member; cases member
  | cons r earlier ih =>
    obtain ⟨due, spaced⟩ := spaced
    rintro r' (_ | ⟨_, member⟩)
    · exact Nat.le_refl _
    · exact (ih spaced r' member).trans (due.ended.1.trans due.ended.2)

theorem Spaced.lasts {refreshes : List Refresh} (spaced : Spaced s hz start refreshes) : ∀ r ∈ refreshes, r.begun ≤ r.ended := by
  induction refreshes with
  | nil => intro r member; cases member
  | cons r earlier ih =>
    obtain ⟨due, spaced⟩ := spaced
    rintro r' (_ | ⟨_, member⟩)
    · exact due.ended.2
    · exact ih spaced r' member

/-- The refreshes that began at some time or later. -/
def begunFrom (T : Nat) (refreshes : List Refresh) : List Refresh := refreshes.filter fun r => T ≤ r.begun

/-- Once the interval is 0 for good, at most one refresh begins. -/
theorem Spaced.at_most_one {refreshes : List Refresh} (spaced : Spaced s hz start refreshes) {T : Nat}
    (disabled : ∀ t, T ≤ t → refreshIntervalHours (s.nvs t) = 0#32) : (begunFrom T refreshes).length ≤ 1 := by
  induction refreshes with
  | nil => exact Nat.zero_le 1
  | cons r earlier ih =>
    obtain ⟨due, spaced⟩ := spaced
    have shorter := ih spaced
    unfold begunFrom at shorter ⊢
    rw [List.filter_cons]
    split
    · -- the interval of this refresh was read before, and so every other had begun before
      have others : earlier.filter (fun r => T ≤ r.begun) = [] := by
        refine List.filter_eq_nil_iff.mpr fun r' member begun => ?_
        obtain ⟨asked, woken, after, enabled, -⟩ := due
        have passed := spaced.ended_le r' member
        have lasts := spaced.lasts r' member
        have late : T ≤ r'.begun := of_decide_eq_true begun
        exact enabled (disabled asked (by omega))
      rw [others]
      exact Nat.le_refl 1
    · exact shorter

/-! ## Whole runs -/

/-- A stored URL that fits the buffer and is not empty. -/
structure Configured (nvs : Nvs) (url : List Byte) : Prop where
  stored : nvs.blocklistUrl = some url
  free : NulFree url
  fits : url.length < maxUrlLen
  some : url ≠ []

/-- From one end of a round to the other the settings stayed, and the network was up once the interval was over. -/
structure Settled (s : Surroundings) (hz : BitVec 32) (nvs : Nvs) (w v : Watch) : Prop where
  stayed : ∀ t, w.now ≤ t → t ≤ v.now → s.nvs t = nvs
  up : ∀ t, w.now + (periodicDelay hz nvs).toNat ≤ t → t ≤ v.now → s.networkUp t = true

/-- **A round refreshes** if meanwhile the settings stay enabled and configured and the network is there. -/
theorem periodicTask_refreshes {nvs : Nvs} {url : List Byte} (enabled : refreshIntervalHours nvs ≠ 0#32)
    (configured : Configured nvs url) (w : Watch) :
    (refreshSem s).Ends (periodicTask hz) (fun _ v => Settled s hz nvs w v → ∃ r, v = ⟨r.ended, r :: w.refreshes⟩ ∧
      r.url = url ∧ w.now + (periodicDelay hz nvs).toNat ≤ r.begun) w := by
  have read {junk : List Byte} (room : junk.length = maxUrlLen) :
      bufString (getStr nvs.blocklistUrl junk).2 = .ok url := by
    rw [configured.stored]
    exact bufString_getStr configured.free (room ▸ configured.fits)
  have starts {junk : List Byte} (room : junk.length = maxUrlLen) :
      (getStr nvs.blocklistUrl junk).2.getD 0 0#8 ≠ 0#8 := by
    rw [configured.stored]
    exact fun empty => configured.some ((head_getStr configured.free (room ▸ configured.fits)).mp empty)
  unfold periodicTask
  simp only [Prog.bind_eq, Prog.perform_bind, Prog.pure_eq]
  refine Sem.ends_call fun hours v₁ asks => ?_
  obtain ⟨asked, after, rfl, rfl⟩ := asks
  split
  · rename_i disabled
    refine Sem.ends_call fun _ v₂ waits => Sem.ends_ret fun settled => ?_
    obtain ⟨woken, waited, rfl⟩ := waits
    rw [settled.stayed asked after ((Nat.le_add_right ..).trans waited)] at disabled
    exact absurd disabled enabled
  rename_i unchanged
  refine Sem.ends_call fun _ v₂ waits => ?_
  obtain ⟨woken, waited, rfl⟩ := waits
  have elapsed (same : s.nvs asked = nvs) : w.now + (periodicDelay hz nvs).toNat ≤ woken := by
    rw [← same, periodicDelay, if_neg unchanged]
    exact (Nat.add_le_add_right after _).trans waited
  have since : asked ≤ woken := (Nat.le_add_right ..).trans waited
  refine Sem.ends_call fun buf v₃ reads => ?_
  obtain ⟨looked, junk, later, room, rfl, rfl⟩ := reads
  split
  · rename_i empty
    refine Sem.ends_ret fun settled => ?_
    rw [settled.stayed looked (after.trans (since.trans later)) (Nat.le_refl _)] at empty
    exact absurd empty (starts room)
  refine Sem.ends_call fun up v₄ sees => ?_
  obtain ⟨seen, waits, rfl, -, rfl⟩ := sees
  have until_seen : asked ≤ seen := since.trans (later.trans waits)
  split
  · split
    · exact Sem.ends_call fun impossible => impossible.elim
    · rename_i baseUrl text
      refine Sem.ends_call fun err v₅ updates => Sem.ends_ret fun settled => ?_
      obtain ⟨begun, ended, starts, lasts, rfl⟩ := updates
      have kept (t : Nat) (first : asked ≤ t) (last : t ≤ seen) : s.nvs t = nvs :=
        settled.stayed t (after.trans first) (last.trans (starts.trans lasts))
      refine ⟨⟨begun, ended, baseUrl⟩, rfl, ?_, ?_⟩
      · rw [kept looked (since.trans later) waits, read room] at text
        exact (Except.ok.inj text).symm
      · exact (elapsed (kept asked (Nat.le_refl _) until_seen)).trans (later.trans (waits.trans starts))
  · rename_i down
    refine Sem.ends_ret fun settled => ?_
    have same := settled.stayed asked after until_seen
    exact absurd (settled.up seen ((elapsed same).trans (later.trans waits)) (Nat.le_refl _)) down

/-- **The refreshes follow the settings.** In any number of rounds each refresh was due after the one
before; once the interval is 0 for good, at most one begins; and there is one in the next round, for as
long as it takes, if meanwhile the settings stay enabled and configured and the network is up when the
interval is over. -/
theorem refreshes_follow_settings (s : Surroundings) (hz : BitVec 32) (start n : Nat) {v : Watch}
    (rounds : (refreshSem s).Rounds (periodicTask hz) n ⟨start, []⟩ v) :
    Spaced s hz start v.refreshes ∧
      (∀ T, (∀ t, T ≤ t → refreshIntervalHours (s.nvs t) = 0#32) → (begunFrom T v.refreshes).length ≤ 1) ∧
      ∀ u, (refreshSem s).Runs (periodicTask hz) v () u → ∀ nvs url, refreshIntervalHours nvs ≠ 0#32 →
        Configured nvs url → Settled s hz nvs v u → ∃ r, u.refreshes = r :: v.refreshes ∧ r.url = url ∧
          v.now + (periodicDelay hz nvs).toNat ≤ r.begun := by
  have spaced : lastEnded start v.refreshes ≤ v.now ∧ Spaced s hz start v.refreshes := by
    refine rounds.invariant (J := fun _ (v : Watch) => lastEnded start v.refreshes ≤ v.now ∧ Spaced s hz start v.refreshes)
      ⟨Nat.le_refl start, trivial⟩ fun _ v before => ?_
    refine (periodicTask_ends s hz v).mono fun _ u round => ?_
    obtain ⟨passed, spaced⟩ := before
    obtain ⟨later, same | ⟨r, rfl, due⟩⟩ := round
    · rw [same]
      exact ⟨passed.trans later, spaced⟩
    · exact ⟨Nat.le_refl r.ended, due.mono passed, spaced⟩
  refine ⟨spaced.2, fun T disabled => spaced.2.at_most_one disabled, ?_⟩
  intro u round nvs url enabled configured settled
  obtain ⟨r, rfl, rest⟩ := periodicTask_refreshes enabled configured v () u round settled
  exact ⟨r, rfl, rest⟩

end

/-! ## A day of refreshes -/

/-- Settings with a URL and an interval of eleven hours, and a network that comes up after the first of them. -/
def elevenHours : Surroundings where
  nvs _ := { refreshHrs := some 11#32, blocklistUrl := some [0x68#8] }
  networkUp t := 4000000 ≤ t

/-- The answers of a task that is always scheduled in time, each refresh taking no time. -/
def Watch.prompt (s : Surroundings) (w : Watch) : (op : RefreshOp) → Option (RefreshRes op × Watch)
  | .getBlocklistRefreshIntervalHours => some (refreshIntervalHours (s.nvs w.now), w)
  | .vTaskDelay ticks => some ((), { w with now := w.now + ticks.toNat })
  | .getBlocklistUrl => some ((getStr (s.nvs w.now).blocklistUrl (List.replicate maxUrlLen 0#8)).2, w)
  | .ethInitWaitForIp timeout =>
    some (if s.networkUp w.now then (true, w)
      else (s.networkUp (w.now + timeout.toNat), { w with now := w.now + timeout.toNat }))
  | .blocklistUpdaterCheckAndApply url => some (.ok, { w with refreshes := ⟨w.now, w.now, url⟩ :: w.refreshes })
  | .abort _ => none

theorem prompt_step {s : Surroundings} (w : Watch) (op : RefreshOp) (r : RefreshRes op) (w' : Watch)
    (answered : w.prompt s op = some (r, w')) : (refreshSem s).step w op r w' := by
  change Watch.step s w op r w'
  cases op with
  | getBlocklistRefreshIntervalHours =>
    cases answered
    exact ⟨_, Nat.le_refl _, rfl, rfl⟩
  | vTaskDelay ticks =>
    cases answered
    exact ⟨_, Nat.le_refl _, rfl⟩
  | getBlocklistUrl =>
    cases answered
    exact ⟨_, _, Nat.le_refl _, List.length_replicate, rfl, rfl⟩
  | ethInitWaitForIp timeout =>
    simp only [Watch.prompt, Option.some.injEq] at answered
    split at answered
    · rename_i up
      cases answered
      exact ⟨_, Nat.le_refl _, up.symm, .inl rfl, rfl⟩
    · cases answered
      exact ⟨_, Nat.le_add_right .., rfl, .inr (Nat.le_refl _), rfl⟩
  | blocklistUpdaterCheckAndApply url =>
    cases answered
    exact ⟨_, _, Nat.le_refl _, Nat.le_refl _, rfl⟩
  | abort => cases answered

/-- At 100 Hz the first round finds no network, and the two after it refresh, eleven hours apart. -/
theorem eleven_hours_apart : ∃ v u, (refreshSem elevenHours).Rounds (periodicTask 100#32) 2 ⟨0, []⟩ v ∧
    (refreshSem elevenHours).Runs (periodicTask 100#32) v () u ∧
    u.refreshes = [⟨11883000, 11883000, [0x68#8]⟩, ⟨7923000, 7923000, [0x68#8]⟩] ∧
    ∃ r, u.refreshes = r :: v.refreshes ∧ r.url = [0x68#8] ∧ v.now + 3960000 ≤ r.begun := by
  have computed : (((periodicTask 100#32).exec (Watch.prompt elevenHours) ⟨0, []⟩).bind fun first =>
      ((periodicTask 100#32).exec (Watch.prompt elevenHours) first.2).bind fun second =>
        ((periodicTask 100#32).exec (Watch.prompt elevenHours) second.2).map fun third =>
          (second.2.now, third.2.now, third.2.refreshes)) =
      some (7923000, 11883000, [⟨11883000, 11883000, [0x68#8]⟩, ⟨7923000, 7923000, [0x68#8]⟩]) := by decide +kernel
  obtain ⟨⟨_, w⟩, first, rest⟩ := Option.bind_eq_some_iff.mp computed
  obtain ⟨⟨_, v⟩, second, rest⟩ := Option.bind_eq_some_iff.mp rest
  obtain ⟨⟨_, u⟩, third, seen⟩ := Option.map_eq_some_iff.mp rest
  obtain ⟨started, seen⟩ := Prod.mk.inj seen
  obtain ⟨ended, refreshed⟩ := Prod.mk.inj seen
  have rounds : (refreshSem elevenHours).Rounds (periodicTask 100#32) 2 ⟨0, []⟩ v :=
    .more (.more .none (Sem.runs_exec prompt_step first)) (Sem.runs_exec prompt_step second)
  have next : (refreshSem elevenHours).Runs (periodicTask 100#32) v () u := Sem.runs_exec prompt_step third
  have free : NulFree [0x68#8] := by decide
  have configured : Configured (elevenHours.nvs 0) [0x68#8] := ⟨rfl, free, by decide, by decide⟩
  have settled : Settled elevenHours 100#32 (elevenHours.nvs 0) v u := by
    refine ⟨fun t _ _ => rfl, fun t later _ => decide_eq_true ?_⟩
    dsimp only at started
    omega
  obtain ⟨r, grown, same, begun⟩ := (refreshes_follow_settings elevenHours 100#32 0 2 rounds).2.2 u next _ _
    (by decide) configured settled
  exact ⟨v, u, rounds, next, refreshed, r, grown, same, begun⟩

end EspAdblocker.Web
