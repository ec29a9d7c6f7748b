import EspAdblocker.Dns.Blocking
import EspAdblocker.Storage.Fitting

/-!
# What the exact list answers

A list file that was read in full is answered by membership in its names, and
the files of the build tool are such files. A file that was read in part is
answered by membership in the names of that part, so a name of the file that is
not among them is let through.
-/

namespace EspAdblocker.Dns

open EspAdblocker.Lib EspAdblocker.Tools EspAdblocker.Storage

/-! ## A file read in full -/

/-- Python's `sorted`. -/
def sorted (names : List PyStr) : List PyStr := names.mergeSort (· ≤ ·)

/-- The list of a file is served: its names are published, and the search answers by membership in them. -/
structure ServesNames (bs : Bsearch) (content : List Byte) (d : Device) : Prop where
  published : ∃ lines, d.statics.domainLines = some lines ∧
    d.strings lines d.statics.domainCount = .ok (fileNames content)
  confirm : ∀ domain, NulFree domain → d.sdStorageConfirm bs domain = .ok (if domain ∈ fileNames content then .blocked
    else if fileNames content = [] then .unavailable else .notBlocked)

/-- A load that nothing hinders serves the list of the file. -/
theorem load_in_full (bs : Bsearch) {d d' : Device} {tr : List Event} {err : EspErr} {content : List Byte}
    (mounted : d.statics.mounted = true) (holds : d.files d.listFile = some content) (newline : 10#8 ∈ content)
    (text : SortedText content) (loaded : (deviceSem false).traced.Runs sdStorageLoadDomainList (d, []) err (d', tr))
    (unhindered : tr.any (hindered d.files) = false) : err = .ok ∧ ServesNames bs content d' := by
  have bytes : d.fileBytes d.listFile = content := by rw [Device.fileBytes, holds]; rfl
  have never {P : Prop} (hindrance : tr.any (hindered d.files) = true) : P := by
    rw [unhindered] at hindrance
    cases hindrance
  cases sdStorageLoadDomainList_outcome d err (d', tr) loaded with
  | unread _ _ _ cause => exact never (cause mounted (bytes.symm ▸ List.ne_nil_of_mem newline))
  | @read f read _ first _ got _ outcome =>
    obtain rfl : f = d.listFile := first.resolve_right never
    obtain rfl : read = content := (got.2 rfl).trans bytes
    cases outcome with
    | rejected _ _ cause =>
      rcases cause with no_line | refused
      · exact absurd newline no_line
      · exact never (hindered_of_failedAlloc d.files refused)
    | published ok _ _ shown =>
      refine ⟨ok, shown.shows text, fun domain free => ?_⟩
      have answer := shown.confirm text bs domain
      rwa [cstr_eq_self free] at answer

/-- **Loading and confirming implements membership.** What the tool writes of any
ASCII names is a sorted file. For any sorted file with a newline, the load performs
nothing undefined, so every pointer it stores has its place in the array; with enough
memory it has a run in which nothing is refused; and every such run, the file read in
full, ends in `ESP_OK` and serves the names of the file, the array having had room for
as many pointers as the file has newlines. -/
theorem loading_implements_membership (bs : Bsearch) :
    (∀ (names : List PyStr) (content : List Byte), (∀ name ∈ names, '\n' ∉ name ∧ '\x00' ∉ name) →
      lineFile (sorted names) = some content → 10#8 ∈ content ∧ SortedText content) ∧
    ∀ (d : Device) (content : List Byte), d.statics.mounted = true → d.files d.listFile = some content →
      10#8 ∈ content → SortedText content →
      (∀ v op, (deviceSem false).Performs sdStorageLoadDomainList d v op → v.Defined op) ∧
      (d.Roomy → content.length < 2 ^ 31 → ∃ err d' tr,
        (deviceSem false).traced.Runs sdStorageLoadDomainList (d, []) err (d', tr) ∧ tr.any (hindered d.files) = false) ∧
      ∀ (d' : Device) (tr : List Event) (err : EspErr),
        (deviceSem false).traced.Runs sdStorageLoadDomainList (d, []) err (d', tr) → tr.any (hindered d.files) = false →
        err = .ok ∧ ServesNames bs content d' ∧ ∀ turns ≤ content.length,
          (splitLines (· == 10#8) (content ++ [0#8]) turns).starts.length ≤ content.count 10#8 := by
  constructor
  · intro names content clean written
    have newline : 10#8 ∈ content := by
      have bytes := Option.some.inj (written.symm.trans (encodeAscii_eq (isAscii_of_encodeAscii written)))
      rw [bytes, asciiBytes, List.map_append, List.mem_append]
      exact .inr List.mem_cons_self
    refine ⟨newline, sortedText_lineFile (List.pairwise_mergeSort' (· ≤ ·) names) (fun name member => ?_) written⟩
    exact clean name (List.mem_mergeSort.mp member)
  · intro d content mounted holds newline text
    refine ⟨fun v op does => ((sdStorageLoadDomainList_fits d).performs does).1,
      fun roomy small => exists_unhindered_load false mounted holds small roomy, fun d' tr err loaded unhindered => ?_⟩
    obtain ⟨ok, serves⟩ := load_in_full bs mounted holds newline text loaded unhindered
    refine ⟨ok, serves, fun turns inside => ?_⟩
    have room : turns ≤ (content ++ [0#8]).length := Nat.le_trans inside (by simp)
    calc _ ≤ ((content ++ [0#8]).take turns).countP (· == 10#8) := length_starts_le _ _ room
      _ = (content.take turns).count 10#8 := by rw [List.take_append_of_le_length inside]; rfl
      _ ≤ content.count 10#8 := (List.take_sublist turns content).count_le 10#8

/-- A device with a card that holds one file, and a filter every name passes. -/
def cardDevice (content : List Byte) : Device where
  partSize _ := none
  flash _ := []
  files _ := some content
  seed := noHashesImage
  statics := { (noHashesDevice {}).statics with mounted := true }

/-- The file of `a` and `ab` is loaded, and confirms `ab`, not `b`. -/
theorem two_names_confirmed : ∃ d' tr,
    (deviceSem false).traced.Runs sdStorageLoadDomainList (cardDevice (asciiBytes "a\nab\n".toList), []) .ok (d', tr) ∧
    d'.sdStorageConfirm .binary [0x61#8, 0x62#8] = .ok .blocked ∧
    d'.sdStorageConfirm .binary [0x62#8] = .ok .notBlocked := by
  have written : lineFile (sorted ["a".toList, "ab".toList]) = some (asciiBytes "a\nab\n".toList) := by
    rw [sorted, List.mergeSort_of_pairwise (by decide)]
    decide +kernel
  obtain ⟨newline, text⟩ := (loading_implements_membership .binary).1 _ _ (by decide) written
  obtain ⟨-, possible, served⟩ := (loading_implements_membership .binary).2
    (cardDevice (asciiBytes "a\nab\n".toList)) _ rfl rfl newline text
  obtain ⟨err, d', tr, loaded, unhindered⟩ := possible (fun n => ⟨n, Nat.le_refl n, rfl⟩) (by decide)
  obtain ⟨rfl, serves, -⟩ := served d' tr err loaded unhindered
  have names : fileNames (asciiBytes "a\nab\n".toList) = [[0x61#8], [0x61#8, 0x62#8]] := by decide +kernel
  have confirms := serves.confirm
  simp only [names] at confirms
  exact ⟨d', tr, loaded, confirms _ (by decide), confirms _ (by decide)⟩

/-! ## A file read in part -/

/-- A name is answered safely: it is confirmed, or there is no list and the filter alone decides. -/
def AnsweredSafely (bs : Bsearch) (d : Device) (name : List Byte) : Prop :=
  d.sdStorageConfirm bs name = .ok .blocked ∨
    d.sdStorageConfirm bs name = .ok .unavailable ∧
      (d.nvs.blockingEnabled = true → d.statics.bloomReady = true → isAllowlisted d name = .ok false →
        ∀ answer, d.bloomTest name = .ok answer → blocks bs d name = .ok answer)

/-- Without a list the filter alone decides. -/
theorem answeredSafely_of_unavailable {bs : Bsearch} {d : Device} {name : List Byte}
    (unavailable : d.sdStorageConfirm bs name = .ok .unavailable) : AnsweredSafely bs d name := by
  refine .inr ⟨unavailable, fun enabled ready notAllowlisted answer tests => ?_⟩
  rw [blocks, if_pos ⟨enabled, ready⟩, tests]
  cases answer with
  | false => rfl
  | true =>
    simp only [bind, Except.bind, if_true, notAllowlisted, Bool.false_eq_true, if_false, unavailable]
    rfl

/-- A load got hold of the whole list or of nothing: memory was refused, or what was
read of the file, if anything was, has no name or has them all. -/
def AllOrNothing (tr : List Event) (content : List Byte) : Prop :=
  tr.any failedAlloc = true ∨
    ∀ r ∈ reads tr, fileNames r.2 = [] ∨ ∀ name ∈ fileNames content, name ∈ fileNames r.2

/-- **After a load every name of the file is answered safely exactly when the load
got hold of all its names or of none**, whatever `fread` returned: success is
decided from what was read, not from the size of the file. -/
theorem answered_safely_iff (bs : Bsearch) {d d' : Device} {tr : List Event} {err : EspErr} {f : DomainFile}
    {content : List Byte} (text : SortedText content) (holds : d.files f = some content)
    (loaded : (deviceSem true).traced.Runs sdStorageLoadDomainList (d, []) err (d', tr))
    (only : ∀ r ∈ reads tr, r.1 = f) :
    (∀ name ∈ fileNames content, AnsweredSafely bs d' name) ↔ AllOrNothing tr content := by
  have none_loaded (empty : d'.statics.domainCount = 0) : ∀ name ∈ fileNames content, AnsweredSafely bs d' name :=
    fun name _ => answeredSafely_of_unavailable (sdStorageConfirm_of_empty bs empty name)
  cases sdStorageLoadDomainList_outcome d err (d', tr) loaded with
  | unread _ empty none_read _ =>
    refine iff_of_true (none_loaded empty) (.inr ?_)
    simp only at none_read
    simp [none_read]
  | @read g read _ _ _ got reads_eq outcome =>
    simp only at reads_eq
    obtain rfl : g = f := only (g, read) (by simp [reads_eq])
    have start : read <+: content := by
      rw [Device.fileBytes, holds] at got
      exact got.1
    cases outcome with
    | rejected _ empty cause =>
      refine iff_of_true (none_loaded empty) ?_
      rcases cause with no_line | refused
      · exact .inr (by simp [reads_eq, fileNames_of_not_mem no_line])
      · exact .inl refused
    | published _ _ allocated shown =>
      have confirm {name : List Byte} (member : name ∈ fileNames content) :
          d'.sdStorageConfirm bs name = .ok (if name ∈ fileNames read then .blocked
            else if fileNames read = [] then .unavailable else .notBlocked) := by
        have answer := shown.confirm (text.restrict start) bs name
        rwa [cstr_eq_self (text.nulFree name member)] at answer
      have here : AllOrNothing tr content ↔
          fileNames read = [] ∨ ∀ name ∈ fileNames content, name ∈ fileNames read := by
        simp only at allocated
        simp [AllOrNothing, allocated, reads_eq]
      rw [here]
      constructor
      · intro safe
        by_cases blank : fileNames read = []
        · exact .inl blank
        · refine .inr fun name member => ?_
          by_contra absent
          have answer := safe name member
          rw [AnsweredSafely, confirm member, if_neg absent, if_neg blank] at answer
          rcases answer with impossible | ⟨impossible, -⟩ <;> cases impossible
      · rintro (blank | complete) name member
        · apply answeredSafely_of_unavailable
          rw [confirm member, blank, if_neg List.not_mem_nil, if_pos rfl]
        · exact .inl (by rw [confirm member, if_pos (complete name member)])

/-- A card on which a read of a file stops after `k` bytes and nothing else fails. -/
def shortCard (k : Nat) (d : Device) : (op : Op) → Option (Res op × Device)
  | .fread f size => some (((d.fileBytes f).take size).take k, d)
  | op => d.ideal (fun _ => .noClient) op

theorem shortCard_step {k : Nat} {d d' : Device} {op : Op} {r : Res op} (answered : shortCard k d op = some (r, d')) :
    (deviceSem true).step d op r d' := by
  cases op with
  | fread f size =>
    cases answered
    exact ⟨⟨List.take_prefix _ _, nofun⟩, rfl⟩
  | _ => exact Device.ideal_step true (fun _ => .noClient) answered

/-- A read that stops behind the last name still answers every name safely. -/
theorem read_of_all_names_safe : ∃ d' tr, (deviceSem true).traced.Runs sdStorageLoadDomainList
      (cardDevice (asciiBytes "a\nab\n#".toList), []) .ok (d', tr) ∧
    reads tr = [(.half .a, asciiBytes "a\nab\n".toList)] ∧
    ∀ name ∈ fileNames (asciiBytes "a\nab\n#".toList), AnsweredSafely .binary d' name := by
  have ends : (sdStorageLoadDomainList.exec (Sem.recorded (shortCard 5))
      (cardDevice (asciiBytes "a\nab\n#".toList), [])).map (fun last => (last.1, reads last.2.2)) =
        some (.ok, [(.half .a, asciiBytes "a\nab\n".toList)]) := by
    decide +kernel
  obtain ⟨⟨err, d', tr⟩, ran, found⟩ := Option.map_eq_some_iff.mp ends
  simp only [Prod.mk.injEq] at found
  obtain ⟨rfl, reads_eq⟩ := found
  have loaded := Sem.runs_exec (fun _ _ _ _ => Sem.recorded_step fun _ _ _ _ => shortCard_step) ran
  have text : SortedText (asciiBytes "a\nab\n#".toList) := ⟨by decide +kernel, by decide +kernel⟩
  have whole : AllOrNothing tr (asciiBytes "a\nab\n#".toList) := by
    refine .inr fun r member => .inr ?_
    rw [reads_eq, List.mem_singleton] at member
    subst member
    decide +kernel
  have only : ∀ r ∈ reads tr, r.1 = .half .a := by
    intro r member
    rw [reads_eq, List.mem_singleton] at member
    rw [member]
  exact ⟨d', tr, loaded, reads_eq, (answered_safely_iff .binary text rfl loaded only).mpr whole⟩

/-- A read that stops behind the first name succeeds, and the second is let through. -/
theorem short_read_lets_through : ∃ d' tr, (deviceSem true).traced.Runs sdStorageLoadDomainList
      (cardDevice (asciiBytes "a\nab\n".toList), []) .ok (d', tr) ∧
    reads tr = [(.half .a, asciiBytes "a\n".toList)] ∧
    [0x61#8, 0x62#8] ∈ fileNames (asciiBytes "a\nab\n".toList) ∧
    d'.sdStorageConfirm .binary [0x61#8, 0x62#8] = .ok .notBlocked ∧ blocks .binary d' [0x61#8, 0x62#8] = .ok false ∧
    ¬ AnsweredSafely .binary d' [0x61#8, 0x62#8] := by
  have ends : (sdStorageLoadDomainList.exec (Sem.recorded (shortCard 2))
      (cardDevice (asciiBytes "a\nab\n".toList), [])).map (fun last => ((last.1, reads last.2.2),
        last.2.1.sdStorageConfirm .binary [0x61#8, 0x62#8], blocks .binary last.2.1 [0x61#8, 0x62#8])) =
        some ((.ok, [(.half .a, asciiBytes "a\n".toList)]), .ok .notBlocked, .ok false) := by
    decide +kernel
  obtain ⟨⟨err, d', tr⟩, ran, found⟩ := Option.map_eq_some_iff.mp ends
  simp only [Prod.mk.injEq] at found
  obtain ⟨⟨rfl, reads_eq⟩, rescued, passed⟩ := found
  have loaded := Sem.runs_exec (fun _ _ _ _ => Sem.recorded_step fun _ _ _ _ => shortCard_step) ran
  refine ⟨d', tr, loaded, reads_eq, by decide +kernel, rescued, passed, ?_⟩
  rintro (impossible | ⟨impossible, -⟩) <;> rw [rescued] at impossible <;> cases impossible

end EspAdblocker.Dns
