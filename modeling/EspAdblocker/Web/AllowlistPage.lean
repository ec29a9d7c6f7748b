import EspAdblocker.Storage.Restart
import EspAdblocker.Web.Allowlist
import EspAdblocker.Web.Receiving

/-!
# The allowlist page

`allowlist_get_handler` shows what is stored, and both `allowlist_post_handler` and the boot
load what is stored. Over any requests and boots, with writes and allocations that fail,
the page shows the stored text, a name is never let through that is not one of its lines,
and all of them are unless the last load had no memory (`allowlist_shown_in_force`).
-/

namespace EspAdblocker.Web

open EspAdblocker.Lib EspAdblocker.Storage EspAdblocker.Dns

/-! ## The page -/

/-- `allowlist_get_handler`: the text it shows. -/
def allowlistGet (nvs : Nvs) (buf : List Byte) : Except Fault (List Byte) := bufString (getStr nvs.allowlist buf).2

/-- The text that is stored; without one it is empty. -/
def storedText (nvs : Nvs) : List Byte := nvs.allowlist.getD []

/-- A text that the page can have stored. -/
def Fits (nvs : Nvs) : Prop := NulFree (storedText nvs) ∧ (storedText nvs).length < appConfigAllowlistMaxLen

section

variable {nvs : Nvs} {buf : List Byte}

theorem allowlistGet_eq (fits : Fits nvs) (room : buf.length = appConfigAllowlistMaxLen) :
    allowlistGet nvs buf = .ok (storedText nvs) := by
  obtain ⟨free, short⟩ := fits
  rw [allowlistGet]
  unfold storedText at free short ⊢
  cases stored : nvs.allowlist with
  | some text =>
    rw [stored] at free short
    exact bufString_getStr free (room ▸ short)
  | none =>
    obtain ⟨b, buf, rfl⟩ := List.exists_cons_of_length_pos (l := buf) (by rw [room]; decide)
    simp [getStr, bufString, cstr]

theorem allowlistText_eq (fits : Fits nvs) : nvs.allowlistText.elim [] allowlistLines = allowlistLines (storedText nvs) := by
  obtain ⟨-, short⟩ := fits
  unfold storedText at short ⊢
  cases stored : nvs.allowlist with
  | some text =>
    rw [stored] at short
    rw [Nvs.allowlistText, stored, Option.filter_some, if_pos]
    · rfl
    · exact decide_eq_true short
  | none =>
    rw [Nvs.allowlistText, stored]
    rfl

end

/-! ## Requests and boots -/

/-- Whether the allowlist lacks memory after a request. -/
def AllowlistOutcome.lacking (before : Bool) : AllowlistOutcome → Bool
  | .rejected _ => before
  | .saved _ _ events => events.any failedAlloc

/-- The text known to be stored after a request. -/
def AllowlistOutcome.known (before : Option (List Byte)) : AllowlistOutcome → Option (List Byte)
  | .rejected _ => before
  | .saved err text _ => if err = .ok then some text else none

/-- A device on which the allowlist is posted, other settings are saved, and which boots, loses its
power and may find NVS unusable and erase it: the text known to be stored, and whether the last load
lacked something it needed. -/
inductive AllowlistLife (json : CJson) (seedLen : BitVec 32) (d₀ : Device) : Option (List Byte) → Bool → Device → Prop where
  | powered : AllowlistLife json seedLen d₀ (some (storedText d₀.nvs)) true d₀.powerCycle
  | booted {known : Option (List Byte)} {lacked created : Bool} {d d' : Device} {mounted err : EspErr} {events : List Event} :
      AllowlistLife json seedLen d₀ known lacked d →
      (deviceSem false).traced.Runs (appMain seedLen created mounted) (d.powerCycle, []) err (d', events) →
      AllowlistLife json seedLen d₀ known (!created || events.any failedAlloc) d'
  | posted {known : Option (List Byte)} {lacked : Bool} {d d' : Device} {outcome : AllowlistOutcome} (contentLen : Nat)
      (pieces : List (List Byte)) : AllowlistLife json seedLen d₀ known lacked d →
      AllowlistPost json false d (receivedOf contentLen pieces) outcome d' →
      AllowlistLife json seedLen d₀ (outcome.known known) (outcome.lacking lacked) d'
  /-- The power is lost while a text is written. -/
  | cut {known : Option (List Byte)} {lacked : Bool} {d d' : Device} {body text : List Byte} {err : EspErr} (contentLen : Nat)
      (pieces : List (List Byte)) : AllowlistLife json seedLen d₀ known lacked d →
      readBody appConfigAllowlistMaxLen (receivedOf contentLen pieces) = some body →
      json.item (cstr body) "allowlist" = some text → setAllowlist d text err d' →
      AllowlistLife json seedLen d₀ none true d'.powerCycle
  /-- The erasure of NVS in `app_main`, before the loads of the boot. -/
  | erased {known : Option (List Byte)} {lacked : Bool} {d : Device} : AllowlistLife json seedLen d₀ known lacked d →
      AllowlistLife json seedLen d₀ (some []) true { d with nvs := {} }.powerCycle
  | saved {known : Option (List Byte)} {lacked : Bool} {d : Device} (nvs : Nvs) : AllowlistLife json seedLen d₀ known lacked d →
      nvs.allowlist = d.nvs.allowlist → AllowlistLife json seedLen d₀ known lacked { d with nvs := nvs }

/-- The text is stored and can be shown, and its lines are loaded; nothing is after a load that
lacked something. -/
structure InForce (known : Option (List Byte)) (lacked : Bool) (d : Device) : Prop where
  known : ∀ text, known = some text → storedText d.nvs = text
  fits : Fits d.nvs
  loaded : AllowlistLoaded (allowlistLines (storedText d.nvs)) d ∨ lacked = true ∧ AllowlistLoaded [] d

section

variable {json : CJson} {seedLen : BitVec 32} {d₀ d d' : Device} {known : Option (List Byte)} {lacked : Bool}
  {received : Option (List Byte)} {body text : List Byte}

/-- What a request can carry fits. -/
theorem fits_of_item (read : readBody appConfigAllowlistMaxLen received = some body)
    (typed : json.item (cstr body) "allowlist" = some text) : NulFree text ∧ text.length < appConfigAllowlistMaxLen := by
  obtain ⟨-, bodyShort⟩ := readBody_eq_some read
  have taken : (cstr body).length ≤ body.length := (List.takeWhile_sublist _).length_le
  have shorter := json.item_length typed
  exact ⟨json.item_free typed, by omega⟩

/-- After a write the old text or the new one is stored, and the new one if the write succeeded. -/
theorem setAllowlist_stores {err : EspErr} (fits : Fits d.nvs) (item : NulFree text ∧ text.length < appConfigAllowlistMaxLen)
    (set : setAllowlist d text err d') : Fits d'.nvs ∧ (err = .ok → storedText d'.nvs = text) := by
  have stored : Fits { d.nvs with allowlist := some text } := item
  unfold setAllowlist at set
  dsimp only at set
  split at set
  · subst set
    exact ⟨stored, fun _ => rfl⟩
  · rename_i failed
    refine ⟨?_, fun ok => absurd ok failed⟩
    rcases set with rfl | rfl
    · exact fits
    · exact stored

/-- A power cycle leaves what is stored, and loads nothing. -/
theorem InForce.powerCycle (fits : Fits d.nvs) (stored : ∀ text, known = some text → storedText d.nvs = text) :
    InForce known true d.powerCycle := ⟨stored, fits, .inr ⟨rfl, .nothing rfl⟩⟩

/-- A load that had its memory has loaded what is stored. -/
theorem inForce_of_loaded {names : List (List Byte)} (same : d'.nvs = d.nvs) (fits : Fits d.nvs)
    (stored : ∀ text, known = some text → storedText d.nvs = text) (names_eq : names = storedAllowlist d)
    (loaded : AllowlistLoaded names d' ∨ lacked = true ∧ AllowlistLoaded [] d') : InForce known lacked d' := by
  refine ⟨by rwa [same], by rwa [same], ?_⟩
  rw [names_eq, storedAllowlist, allowlistText_eq fits] at loaded
  rwa [same]

/-- A boot puts what is stored in force. -/
theorem InForce.boot {created : Bool} {mounted err : EspErr} {events : List Event} (before : InForce known lacked d)
    (boots : (deviceSem false).traced.Runs (appMain seedLen created mounted) (d.powerCycle, []) err (d', events)) :
    InForce known (!created || events.any failedAlloc) d' := by
  obtain ⟨same, loaded⟩ := appMain_allowlist created mounted d err (d', events) boots
  refine inForce_of_loaded same.nvs before.fits before.known rfl ?_
  rcases loaded with lines | ⟨lacks, nothing⟩
  · exact .inl lines
  · refine .inr ⟨?_, nothing⟩
    rcases lacks with refused | failed
    · rw [refused]
      rfl
    · rw [failed, Bool.or_true]

/-- A request puts the text in force that it leaves stored. -/
theorem InForce.post {outcome : AllowlistOutcome} (before : InForce known lacked d)
    (posted : AllowlistPost json false d received outcome d') : InForce (outcome.known known) (outcome.lacking lacked) d' := by
  cases posted with
  | unread => exact before
  | noString => exact before
  | @saved body text err events d₁ _ read typed set reloaded =>
    obtain ⟨fits₁, stores⟩ := setAllowlist_stores before.fits (fits_of_item read typed) set
    have volatile : (deviceSem false).Ends dnsProxyReloadAllowlist (fun _ v => SamePersistent d₁ v) d₁ :=
      ends_samePersistent (dnsProxyReloadAllowlist_loads.mono fun _ h => h.volatile) d₁
    have same : SamePersistent d₁ d' := volatile.traced [] () (d', events) reloaded
    have loaded := dnsProxyReloadAllowlist_ends d₁ () (d', events) reloaded
    refine inForce_of_loaded same.nvs fits₁ (fun text' is_known => ?_) rfl ?_
    · change (if err = .ok then some text else none) = some text' at is_known
      split at is_known
      · rename_i ok
        rw [stores ok, Option.some.inj is_known]
      · cases is_known
    · dsimp only at loaded
      split at loaded
      · rename_i failed
        exact .inr ⟨failed, loaded⟩
      · exact .inl loaded

/-- Other settings leave the allowlist in force. -/
theorem InForce.save {nvs : Nvs} (before : InForce known lacked d) (same : nvs.allowlist = d.nvs.allowlist) :
    InForce known lacked { d with nvs := nvs } := by
  have text : storedText nvs = storedText d.nvs := congrArg (Option.getD · []) same
  refine ⟨fun text' is_known => text.trans (before.known text' is_known), ?_, ?_⟩
  · show Fits nvs
    rw [Fits, text]
    exact before.fits
  · show AllowlistLoaded (allowlistLines (storedText nvs)) _ ∨ _
    rw [text]
    rcases before.loaded with lines | ⟨lacks, nothing⟩
    · exact .inl ⟨lines.count, lines.entries⟩
    · exact .inr ⟨lacks, nothing.count, nothing.entries⟩

/-- **What is stored is in force**, over any requests and boots. -/
theorem inForce_life (fits : Fits d₀.nvs) (life : AllowlistLife json seedLen d₀ known lacked d) : InForce known lacked d := by
  induction life with
  | powered => exact .powerCycle fits fun _ same => Option.some.inj same
  | booted _ boots before => exact before.boot boots
  | posted contentLen pieces _ post before => exact before.post post
  | cut contentLen pieces _ read typed set before =>
    exact .powerCycle (setAllowlist_stores before.fits (fits_of_item read typed) set).1 fun _ same => by cases same
  | @erased known lacked d _ _ =>
    have fits : Fits {} := ⟨fun _ member => (by cases member), by decide⟩
    exact InForce.powerCycle (d := { d with nvs := {} }) fits fun _ same => Option.some.inj same
  | saved nvs _ same before => exact before.save same

/-- **The page, the settings and the proxy agree on the allowlist.** Over any requests, in any pieces,
and any boots, writes and loads that fail, the page shows the text stored last since NVS was last erased,
as far as it is known, whatever its buffer held; no name is let through for good that is not a line of what it shows; and
each of its lines is, unless the last load lacked its memory or its mutex. -/
theorem allowlist_shown_in_force (fits : Fits d₀.nvs) (life : AllowlistLife json seedLen d₀ known lacked d) :
    ∃ shown, (∀ buf, buf.length = appConfigAllowlistMaxLen → allowlistGet d.nvs buf = .ok shown) ∧
      (∀ text, known = some text → text = shown) ∧
      (∀ name, NulFree name → AlwaysPasses d name → name ∈ allowlistLines shown) ∧
      (lacked = false → ∀ name ∈ allowlistLines shown, AlwaysPasses d name) := by
  have inForce := inForce_life fits life
  refine ⟨storedText d.nvs, fun buf room => allowlistGet_eq inForce.fits room, fun text is_known =>
    (inForce.known text is_known).symm, ?_, ?_⟩
  · intro name free passes
    rcases inForce.loaded with lines | ⟨-, nothing⟩
    · exact (alwaysPasses_iff lines (fun _ => nulFree_of_mem_allowlistLines) free).mp passes
    · have listed := (alwaysPasses_iff nothing (fun _ member => by cases member) free).mp passes
      cases listed
  · intro enough name member
    rcases inForce.loaded with lines | ⟨lacks, -⟩
    · exact (alwaysPasses_iff lines (fun _ => nulFree_of_mem_allowlistLines) (nulFree_of_mem_allowlistLines member)).mpr member
    · rw [enough] at lacks
      cases lacks

end

/-- A line that is posted in two pieces is let through. -/
theorem line_in_pieces_passes : ∃ d, AllowlistLife sampleJson 0#32 plainDevice (some (textBytes "a.b")) false d ∧
    AlwaysPasses d (textBytes "a.b") := by
  obtain ⟨events, d, quiet, posted⟩ := @post_line "a.b" (by decide) (by decide) (by decide)
    (by decide +kernel)
  have pieces : receivedOf (allowlistBody "a.b").length [(allowlistBody "a.b").take 7, (allowlistBody "a.b").drop 7] =
      some (allowlistBody "a.b") := by decide
  have start : AllowlistLife sampleJson 0#32 plainDevice (some []) true plainDevice := .powered
  have life := start.posted (allowlistBody "a.b").length _ (pieces ▸ posted)
  have lacked : AllowlistOutcome.lacking true (.saved .ok (textBytes "a.b") events) = false := quiet
  rw [lacked] at life
  have fits : Fits plainDevice.nvs := ⟨fun _ member => (by cases member), by decide⟩
  obtain ⟨shown, -, known, -, all⟩ := allowlist_shown_in_force fits life
  refine ⟨d, life, all rfl _ ?_⟩
  rw [← known _ rfl]
  decide

end EspAdblocker.Web
