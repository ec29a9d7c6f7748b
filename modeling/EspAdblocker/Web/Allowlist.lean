import EspAdblocker.Bloom.Agreement
import EspAdblocker.Dns.Allowing
import EspAdblocker.Dns.Names
import EspAdblocker.Web.Request

/-!
# The allowlist, from the browser to the query

`allowlist_post_handler` stores the text the user typed and has it reloaded.
Nothing on the way normalizes a line, so a name that something blocks is let through
exactly when it is itself, byte for byte, a line of the text, and the filter can be
asked about it (`allowlist_wins_iff`).
-/

namespace EspAdblocker.Web

open EspAdblocker.Lib EspAdblocker.Storage EspAdblocker.Dns EspAdblocker.Tools EspAdblocker.Bloom

/-! ## Normalization -/

/-- A text as the browser sends it. -/
def utf8Bytes (s : PyStr) : List Byte := s.flatMap fun c => (String.utf8EncodeChar c).map UInt8.toBitVec

theorem utf8Bytes_eq {s : PyStr} (ascii : IsAscii s) : utf8Bytes s = asciiBytes s := by
  induction s with
  | nil => rfl
  | cons c s ih =>
    have small : c.val.toNat ≤ 127 := Nat.le_of_lt_succ (ascii c List.mem_cons_self)
    have one : (String.utf8EncodeChar c).map UInt8.toBitVec = [BitVec.ofNat 8 c.toNat] := by
      rw [String.utf8EncodeChar, if_pos small]
      rfl
    rw [utf8Bytes, List.flatMap_cons, ← utf8Bytes, ih fun d member => ascii d (List.mem_cons_of_mem c member), one]
    rfl

/-- The normalization of a line is a domain: the whitespace around it stripped, its letters
lowered, one dot less at its end. -/
def NormalizesTo (U : PyUnicode) (line : List Byte) (name : PyStr) : Prop :=
  IsDomain name ∧ ∃ s, utf8Bytes s = line ∧ normalizeDomain U s = name

/-! ## The handler -/

/-- `APP_CONFIG_ALLOWLIST_MAX_LEN`. -/
def appConfigAllowlistMaxLen : Nat := 2048

/-- `app_config_set_allowlist`: `nvs_set_str` and `nvs_commit`. When one of them fails the old or the new text is there. -/
def setAllowlist (d : Device) (text : List Byte) (err : EspErr) (d' : Device) : Prop :=
  let stored := { d with nvs := { d.nvs with allowlist := some text } }
  if err = .ok then d' = stored else d' = d ∨ d' = stored

/-- How `allowlist_post_handler` ends. -/
inductive AllowlistOutcome where
  | rejected (message : String)
  /-- The setter was called with the text, and the reload performed its operations. -/
  | saved (err : EspErr) (text : List Byte) (events : List Event)

/-- What the browser is told: the setter's error is ignored. -/
def AllowlistOutcome.response : AllowlistOutcome → Response
  | .rejected message => .error message
  | .saved _ _ _ => .ok

/-- `allowlist_post_handler`. -/
inductive AllowlistPost (json : CJson) (short : Bool) (d : Device) (received : Option (List Byte)) :
    AllowlistOutcome → Device → Prop where
  | unread : readBody appConfigAllowlistMaxLen received = none →
      AllowlistPost json short d received (.rejected "request body missing or too large") d
  | noString {body : List Byte} : readBody appConfigAllowlistMaxLen received = some body →
      json.item (cstr body) "allowlist" = none →
      AllowlistPost json short d received
        (.rejected "expected \x7b\"allowlist\": \"domain-per-line string\"\x7d") d
  | saved {body text : List Byte} {err : EspErr} {events : List Event} {d₁ d₂ : Device} :
      readBody appConfigAllowlistMaxLen received = some body → json.item (cstr body) "allowlist" = some text →
      setAllowlist d text err d₁ → (deviceSem short).traced.Runs dnsProxyReloadAllowlist (d₁, []) () (d₂, events) →
      AllowlistPost json short d received (.saved err text events) d₂

/-! ## Queries -/

/-- Two devices have the same allowlist loaded; their filters, lists and settings may differ. -/
structure SameAllowlist (d d' : Device) : Prop where
  count : d'.statics.allowlistCount = d.statics.allowlistCount
  entries : d'.statics.allowlistEntries = d.statics.allowlistEntries
  strings : ∀ entries, d.statics.allowlistEntries = some entries →
    d'.strings entries d.statics.allowlistCount = d.strings entries d.statics.allowlistCount

theorem SameAllowlist.isAllowlisted_eq {d d' : Device} (same : SameAllowlist d d') (qname : List Byte) :
    isAllowlisted d' qname = isAllowlisted d qname := by
  rw [isAllowlisted, isAllowlisted, same.count, same.entries]
  split
  · rfl
  · cases loaded : d.statics.allowlistEntries with
    | none => rfl
    | some entries => simp only [same.strings entries loaded]

/-- A query for the name is never blocked, whatever the filter and the exact list hold, as far as
the filter can be asked at all. -/
def AlwaysPasses (d : Device) (name : List Byte) : Prop :=
  ∀ bs d' buf n q, SameAllowlist d d' → (d'.statics.bloomReady = true → ∃ answer, d'.bloomTest q.qname = .ok answer) →
    cstr q.qname = name → tryBlock bs d' buf n q = .ok none

/-- The device with a filter that holds every name and no exact list to confirm it. -/
def listingAll (d : Device) : Device :=
  { d with
    nvs := { d.nvs with blockEn := some 1#8 }
    seed := noHashesImage
    statics := { d.statics with
      bloomHeader := some .seed, bloomBits := some .seed, bloomReady := true, domainLines := none } }

theorem sameAllowlist_listingAll (d : Device) : SameAllowlist d (listingAll d) :=
  ⟨rfl, rfl, fun _ _ => rfl⟩

theorem bloomTest_listingAll (d : Device) (name : List Byte) : (listingAll d).bloomTest name = .ok true :=
  bloomTest_noHashes rfl rfl rfl name

/-- It blocks what the allowlist does not let through. -/
theorem blocks_listingAll {d : Device} {name : List Byte} (unlisted : isAllowlisted d name = .ok false) :
    blocks .binary (listingAll d) name = .ok true := by
  rw [← (sameAllowlist_listingAll d).isAllowlisted_eq] at unlisted
  rw [blocks, if_pos ⟨rfl, rfl⟩, bloomTest_listingAll]
  simp only [bind, Except.bind, if_true, unlisted]
  rfl

/-- **A name always passes exactly when it is loaded.** -/
theorem alwaysPasses_iff {names : List (List Byte)} {d : Device} {name : List Byte} (loaded : AllowlistLoaded names d)
    (free : ∀ name ∈ names, NulFree name) (nulFree : NulFree name) : AlwaysPasses d name ↔ name ∈ names := by
  constructor
  · intro passes
    by_contra absent
    have unlisted : isAllowlisted d name = .ok false := by
      rw [isAllowlisted_eq loaded free, cstr_eq_self nulFree, decide_eq_false absent]
    have let_through := passes .binary (listingAll d) [] 0 (addressQuestion name 0) (sameAllowlist_listingAll d)
      (fun _ => ⟨true, bloomTest_listingAll d name⟩) (cstr_eq_self nulFree)
    have decided : blocks .binary (listingAll d) (addressQuestion name 0).qname = .ok true := blocks_listingAll unlisted
    rw [tryBlock_of_blocks decided] at let_through
    cases let_through
  · rintro member bs d' buf n q same testable rfl
    have listed : isAllowlisted d' q.qname = .ok true := by
      rw [same.isAllowlisted_eq, isAllowlisted_eq loaded free, decide_eq_true member]
    have decided : blocks bs d' q.qname = .ok false := by
      rw [blocks]
      split
      · rename_i on
        obtain ⟨answer, tests⟩ := testable on.2
        rw [tests]
        simp only [bind, Except.bind, listed]
        cases answer <;> rfl
      · rfl
    rw [tryBlock_of_blocks decided]
    rfl

/-! ## What the user typed -/

/-- What the handler leaves loaded when the text was stored. -/
theorem AllowlistPost.loaded {json : CJson} {short : Bool} {d d' : Device} {received : Option (List Byte)} {text : List Byte}
    {events : List Event} (posted : AllowlistPost json short d received (.saved .ok text events) d') :
    NulFree text ∧ AllowlistLoaded (if events.any failedAlloc then [] else allowlistLines text) d' := by
  cases posted with
  | @saved body _ _ _ d₁ _ read typed set reloaded =>
    obtain rfl : d₁ = _ := set
    have free := json.item_free typed
    obtain ⟨-, bodyShort⟩ := readBody_eq_some read
    have taken : (cstr body).length ≤ body.length := (List.takeWhile_sublist _).length_le
    have short : text.length < 2048 := by
      have := json.item_length typed
      rw [appConfigAllowlistMaxLen] at bodyShort
      omega
    have stored : Nvs.allowlistText { d.nvs with allowlist := some text } = some text := by
      rw [Nvs.allowlistText, Option.filter_some, if_pos (decide_eq_true short)]
    have loaded := dnsProxyReloadAllowlist_ends _ _ _ reloaded
    dsimp only at loaded
    rw [stored] at loaded
    exact ⟨free, loaded⟩

/-- Nothing but the allowlist is needed for the name to pass: blocking is off or no filter ready,
the filter does not hold the name, or the exact list denies it. -/
def PassesAnyway (bs : Bsearch) (d : Device) (qname : List Byte) : Prop :=
  ¬ (d.nvs.blockingEnabled = true ∧ d.statics.bloomReady = true) ∨ d.bloomTest qname = .ok false ∨
    d.bloomTest qname = .ok true ∧ d.sdStorageConfirm bs qname = .ok .notBlocked

/-- What decides a query once it is known whether its name is allowlisted. -/
theorem blocks_eq_false_iff {bs : Bsearch} {d : Device} {qname : List Byte} {listed : Bool}
    (answered : isAllowlisted d qname = .ok listed) :
    blocks bs d qname = .ok false ↔
      PassesAnyway bs d qname ∨ (∃ answer, d.bloomTest qname = .ok answer) ∧ listed = true := by
  by_cases on : d.nvs.blockingEnabled = true ∧ d.statics.bloomReady = true
  · rw [blocks, if_pos on, answered]
    simp only [PassesAnyway, on, and_self, not_true_eq_false, false_or, bind, Except.bind]
    rcases d.bloomTest qname with fault | _ | _
    · simp
    · simp [pure, Except.pure]
    · cases listed
      · rcases d.sdStorageConfirm bs qname with fault | _ | _ | _ <;> simp [pure, Except.pure]
      · simp [pure, Except.pure]
  · rw [blocks, if_neg on]
    exact iff_of_true rfl (.inl (.inl on))

/-- **When the allowlist wins**, for every line whose normalization is a domain. In any later state
`try_block` lets a query for the domain pass exactly if nothing there blocks the name anyway, or the
lookup in the filter ends, the reload got its memory, and the domain is itself a line of the text. And
it lets the domain pass in every state whose filter can be asked exactly if the last two hold. -/
theorem allowlist_wins_iff {json : CJson} {short : Bool} {d d' : Device} {received : Option (List Byte)} {text : List Byte}
    {events : List Event} (posted : AllowlistPost json short d received (.saved .ok text events) d') (U : PyUnicode) :
    ∀ line ∈ text.splitOn 10#8, ∀ name, NormalizesTo U line name →
      (∀ bs d'' buf n q, SameAllowlist d' d'' → cstr q.qname = asciiBytes name →
        (tryBlock bs d'' buf n q = .ok none ↔ PassesAnyway bs d'' q.qname ∨ (∃ answer, d''.bloomTest q.qname = .ok answer) ∧
          events.any failedAlloc = false ∧ asciiBytes name ∈ text.splitOn 10#8)) ∧
      (AlwaysPasses d' (asciiBytes name) ↔ events.any failedAlloc = false ∧ asciiBytes name ∈ text.splitOn 10#8) := by
  rintro line - name ⟨domain, -⟩
  obtain ⟨free, loaded⟩ := posted.loaded
  have names_free : ∀ name ∈ if events.any failedAlloc then [] else allowlistLines text, NulFree name := by
    intro name member
    split at member
    · cases member
    · exact nulFree_of_mem_allowlistLines member
  have nonempty : asciiBytes name ≠ [] := by simpa [asciiBytes] using domain.nonempty
  have listed_iff : (asciiBytes name ∈ if events.any failedAlloc then [] else allowlistLines text) ↔
      events.any failedAlloc = false ∧ asciiBytes name ∈ text.splitOn 10#8 := by
    cases events.any failedAlloc with
    | true => simp
    | false => simp [allowlistLines, cstr_eq_self free, nonempty]
  constructor
  · intro bs d'' buf n q same asked
    have answered := (same.isAllowlisted_eq q.qname).trans (isAllowlisted_eq loaded names_free q.qname)
    rw [asked] at answered
    rw [tryBlock_eq_none_iff, blocks_eq_false_iff answered, decide_eq_true_eq, listed_iff]
  · rw [alwaysPasses_iff loaded names_free domain.nulFree, listed_iff]

/-- The body of a request that sends one line of text. -/
def allowlistBody (line : String) : List Byte := textBytes "\x7b\"allowlist\":\"" ++ textBytes line ++ textBytes "\"\x7d"

/-- cJSON on the bodies that send these names. -/
def sampleJson : CJson where
  parse body := body == allowlistBody "a.b" || body == allowlistBody "A.b"
  item body key :=
    if body = allowlistBody "a.b" ∧ key = "allowlist" then some (textBytes "a.b")
    else if body = allowlistBody "A.b" ∧ key = "allowlist" then some (textBytes "A.b")
    else none
  item_free := by
    intro body key value found
    split at found
    · cases found
      decide
    · split at found
      · cases found
        decide
      · cases found
  item_length := by
    intro body key value found
    split at found
    · rename_i sent
      cases found
      rw [sent.1]
      decide
    · split at found
      · rename_i sent
        cases found
        rw [sent.1]
        decide
      · cases found

/-- A device without an allowlist. -/
def plainDevice : Device where
  partSize _ := none
  flash _ := []
  files _ := none
  seed := []

/-- Posting a line to that device, with every operation succeeding. -/
theorem post_line {line : String} (typed : sampleJson.item (allowlistBody line) "allowlist" = some (textBytes line))
    (read : readBody appConfigAllowlistMaxLen (some (allowlistBody line)) = some (allowlistBody line))
    (free : NulFree (allowlistBody line))
    (reloads : (dnsProxyReloadAllowlist.exec (Sem.recorded (Device.ideal fun _ => .noClient))
      ({ plainDevice with nvs := { plainDevice.nvs with allowlist := some (textBytes line) } }, [])).map
        (fun done => done.2.2.any failedAlloc) = some false) :
    ∃ events d, events.any failedAlloc = false ∧
      AllowlistPost sampleJson false plainDevice (some (allowlistBody line)) (.saved .ok (textBytes line) events) d := by
  obtain ⟨⟨u, d, events⟩, run, quiet⟩ := Option.map_eq_some_iff.mp reloads
  have reloaded : (deviceSem false).traced.Runs dnsProxyReloadAllowlist _ u (d, events) :=
    Device.runs_recorded_ideal false run
  refine ⟨events, d, quiet, .saved read ?_ rfl reloaded⟩
  rwa [cstr_eq_self free]

theorem isDomain_ab : IsDomain "a.b".toList := by
  have all_labels : "a.b".toList.all (fun c => isLabelChar c || c == '.') = true := by decide
  refine ⟨fun c member => ?_, by decide, by decide⟩
  simpa using List.all_eq_true.mp all_labels c member

/-- A name typed in its normal form is let through wherever the filter can be asked. -/
theorem plain_name_wins : ∃ events d,
    AllowlistPost sampleJson false plainDevice (some (allowlistBody "a.b")) (.saved .ok (textBytes "a.b") events) d ∧
      (∀ bs d' buf n q, SameAllowlist d d' → cstr q.qname = textBytes "a.b" →
        (∃ answer, d'.bloomTest q.qname = .ok answer) → tryBlock bs d' buf n q = .ok none) ∧
      AlwaysPasses d (textBytes "a.b") := by
  obtain ⟨events, d, quiet, posted⟩ := @post_line "a.b" (by decide) (by decide) (by decide)
    (by decide +kernel)
  have line : textBytes "a.b" ∈ (textBytes "a.b").splitOn 10#8 := by decide
  have normalized : NormalizesTo asciiUnicode (textBytes "a.b") "a.b".toList :=
    ⟨isDomain_ab, "a.b".toList, utf8Bytes_eq isDomain_ab.isAscii, isDomain_ab.normalizeDomain_eq _⟩
  obtain ⟨wins, always⟩ := allowlist_wins_iff posted asciiUnicode _ line _ normalized
  exact ⟨events, d, posted, fun bs d' buf n q same asked tests =>
    (wins bs d' buf n q same asked).mpr (.inr ⟨tests, quiet, line⟩), always.mpr ⟨quiet, line⟩⟩

/-- The same name typed with a capital is stored with the capital, and stays blocked. -/
theorem capital_name_blocked : ∃ events d d', events.any failedAlloc = false ∧
    AllowlistPost sampleJson false plainDevice (some (allowlistBody "A.b")) (.saved .ok (textBytes "A.b") events) d ∧
      NormalizesTo asciiUnicode (textBytes "A.b") "a.b".toList ∧ SameAllowlist d d' ∧
      d'.bloomTest (textBytes "a.b") = .ok true ∧
      ∃ reply, tryBlock .binary d' [] 0 (addressQuestion (textBytes "a.b") 0) = .ok (some reply) := by
  obtain ⟨events, d, quiet, posted⟩ := @post_line "A.b" (by decide) (by decide) (by decide)
    (by decide +kernel)
  obtain ⟨-, loaded⟩ := posted.loaded
  have names : (if events.any failedAlloc then [] else allowlistLines (textBytes "A.b")) = [textBytes "A.b"] := by
    rw [quiet]
    decide
  rw [names] at loaded
  have unlisted : isAllowlisted d (textBytes "a.b") = .ok false := by
    rw [isAllowlisted_eq loaded (by decide)]
    decide
  have blocked : tryBlock .binary (listingAll d) [] 0 (addressQuestion (textBytes "a.b") 0) = .ok (some _) :=
    tryBlock_of_blocks (blocks_listingAll unlisted)
  exact ⟨events, d, listingAll d, quiet, posted, ⟨isDomain_ab, "A.b".toList, by decide, by decide⟩,
    sameAllowlist_listingAll d, bloomTest_listingAll d _, _, blocked⟩

end EspAdblocker.Web
