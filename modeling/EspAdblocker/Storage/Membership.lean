import EspAdblocker.Storage.Allowlist
import EspAdblocker.Storage.Failure

/-!
# What a load comes to

A load of the exact list either reads no file, or reads one once and then
rejects or publishes the bytes (`LoadOutcome`). When it rejects them no list is
loaded and every name is unavailable; when it publishes them the list answers by
the names of those bytes (`ListLoaded.confirm`), whether or not they are all of the
file.
-/

namespace EspAdblocker.Storage

open EspAdblocker.Lib

/-! ## Sorted files -/

/-- A list file as the search needs it: lines without NUL, the names in the order of their bytes. -/
structure SortedText (content : List Byte) : Prop where
  free : ∀ line ∈ terminated 10#8 content, NulFree line
  sorted : (fileNames content).Pairwise fun x y => byteValues x ≤ byteValues y

theorem mem_fileNames {content name : List Byte} : name ∈ fileNames content ↔ name ∈ terminated 10#8 content ∧ name ≠ [] := by
  simp [fileNames]

theorem fileNames_of_not_mem {content : List Byte} (unclosed : 10#8 ∉ content) : fileNames content = [] := by
  rw [fileNames, terminated_of_not_mem unclosed]
  rfl

/-- The names of a prefix are a prefix of the names. -/
theorem fileNames_mono {read content : List Byte} (start : read <+: content) : fileNames read <+: fileNames content :=
  (terminated_mono start).filter _

namespace SortedText

variable {content : List Byte}

theorem nulFree (text : SortedText content) : ∀ name ∈ fileNames content, NulFree name :=
  fun name member => text.free name (mem_fileNames.mp member).1

/-- The order of the file is the order of `strcmp`. -/
theorem strcmp_sorted (text : SortedText content) : (fileNames content).Pairwise fun x y => strcmp x y ≤ 0 :=
  text.sorted.imp_of_mem fun hx hy le => (strcmp_nonpos_iff (text.nulFree _ hx) (text.nulFree _ hy)).mpr le

/-- What was read of a sorted file is sorted. -/
theorem restrict {read : List Byte} (text : SortedText content) (start : read <+: content) : SortedText read where
  free line member := text.free line ((terminated_mono start).subset member)
  sorted := text.sorted.sublist (fileNames_mono start).sublist

end SortedText

/-! ## Answers -/

/-- With no name loaded every answer is `UNAVAILABLE`. -/
theorem sdStorageConfirm_of_empty (bs : Bsearch) {d : Device} (empty : d.statics.domainCount = 0) (domain : List Byte) :
    d.sdStorageConfirm bs domain = .ok .unavailable := by
  unfold Device.sdStorageConfirm
  split
  · rfl
  · rw [if_pos empty]

theorem ListLoaded.count_eq {read : List Byte} {d : Device} (loaded : ListLoaded read d) (text : SortedText read) :
    d.statics.domainCount = (fileNames read).length := by
  rw [loaded.count, ← listStrings_eq text.free, listStrings, List.length_map]

/-- The published pointers show the names of what was read. -/
theorem ListLoaded.shows {read : List Byte} {d : Device} (loaded : ListLoaded read d) (text : SortedText read) :
    ∃ lines, d.statics.domainLines = some lines ∧ d.strings lines d.statics.domainCount = .ok (fileNames read) := by
  obtain ⟨lines, published, shown⟩ := loaded.lines
  rw [listStrings_eq text.free] at shown
  exact ⟨lines, published, loaded.count.symm ▸ shown⟩

/-- **What a loaded list answers**: membership in the names of what was read. -/
theorem ListLoaded.confirm {read : List Byte} {d : Device} (loaded : ListLoaded read d) (text : SortedText read)
    (bs : Bsearch) (domain : List Byte) :
    d.sdStorageConfirm bs domain = .ok (if cstr domain ∈ fileNames read then .blocked
      else if fileNames read = [] then .unavailable else .notBlocked) := by
  by_cases none_read : fileNames read = []
  · have empty : d.statics.domainCount = 0 := by rw [loaded.count_eq text, none_read, List.length_nil]
    rw [sdStorageConfirm_of_empty bs empty, none_read, if_neg List.not_mem_nil, if_pos rfl]
  · rw [sdStorageConfirm_of_sorted bs loaded (listStrings_eq text.free) none_read text.nulFree text.strcmp_sorted,
      if_neg none_read]

/-! ## The events of a load -/

/-- The file that has the list: that of the active slot, or that of the earlier name. -/
def Device.listFile (d : Device) : DomainFile := if (d.files d.activeFile).isSome then d.activeFile else .legacy

/-- The operation did less than the device's state lets it: a file that is there
was not opened or not measured, or memory was refused. -/
def hindered (files : DomainFile → Option (List Byte)) : Event → Bool
  | ⟨.fopenRead f, opened⟩ => !opened && (files f).isSome
  | ⟨.fileSize _, size⟩ => size == -1
  | e => failedAlloc e

/-- The bytes an operation read of a file. -/
def readOf : Event → Option (DomainFile × List Byte)
  | ⟨.fread f _, read⟩ => some (f, read)
  | _ => none

/-- What was read in the course of a run. -/
def reads (tr : List Event) : List (DomainFile × List Byte) := tr.filterMap readOf

theorem reads_append (pre tr : List Event) : reads (pre ++ tr) = reads pre ++ reads tr := List.filterMap_append

theorem reads_cons (e : Event) (tr : List Event) : reads (e :: tr) = (readOf e).toList ++ reads tr := by
  rw [reads, List.filterMap_cons]
  cases readOf e <;> rfl

theorem hindered_of_failedAlloc (files : DomainFile → Option (List Byte)) {tr : List Event}
    (failed : tr.any failedAlloc = true) : tr.any (hindered files) = true := by
  obtain ⟨⟨op, r⟩, member, refused⟩ := List.any_eq_true.mp failed
  refine List.any_eq_true.mpr ⟨⟨op, r⟩, member, ?_⟩
  cases op with
  | mallocChars | mallocPtrs => exact refused
  | _ => cases refused

/-- What becomes of bytes that were read. -/
inductive InstallOutcome (read : List Byte) (err : EspErr) (v : Device × List Event) : Prop where
  | rejected (failed : err ≠ .ok) (empty : v.1.statics.domainCount = 0)
      (cause : 10#8 ∉ read ∨ v.2.any failedAlloc = true)
  | published (ok : err = .ok) (newline : 10#8 ∈ read) (allocated : v.2.any failedAlloc = false)
      (loaded : ListLoaded read v.1)

/-- What a load comes to. It reads one file once, or none. -/
inductive LoadOutcome (short : Bool) (d : Device) (err : EspErr) (v : Device × List Event) : Prop where
  | unread (failed : err ≠ .ok) (empty : v.1.statics.domainCount = 0) (none_read : reads v.2 = [])
      (cause : d.statics.mounted = true → d.fileBytes d.listFile ≠ [] → v.2.any (hindered d.files) = true)
  | read {f : DomainFile} {read : List Byte} (named : f = d.activeFile ∨ f = .legacy)
      (first : f = d.listFile ∨ v.2.any (hindered d.files) = true) (present : (d.files f).isSome)
      (got : Device.ReadOf short (d.fileBytes f) read) (reads_eq : reads v.2 = [(f, read)])
      (outcome : InstallOutcome read err v)

/-! ## The walk -/

/-- Operations before an installation that refuse no memory do not count. -/
theorem InstallOutcome.behind {read : List Byte} {err : EspErr} {v : Device × List Event} (pre : List Event)
    (outcome : InstallOutcome read err v) (quiet : pre.any failedAlloc = false) :
    InstallOutcome read err (v.1, pre ++ v.2) := by
  have same : (pre ++ v.2).any failedAlloc = v.2.any failedAlloc := by rw [List.any_append, quiet, Bool.false_or]
  cases outcome with
  | rejected failed empty cause => exact .rejected failed empty (same.symm ▸ cause)
  | published ok newline allocated loaded => exact .published ok newline (same.trans allocated) loaded

section

variable {short : Bool}

/-- **What an installation comes to**: the bytes are rejected, or their strings are published. -/
theorem installDomainList_outcome {buf : Nat} {junk : List Byte} {d : Device} (live : d.heap buf = some (.chars junk))
    (empty : d.statics.domainCount = 0) (read : List Byte) :
    (deviceSem short).traced.Ends (installDomainList buf read) (fun err v => reads v.2 = [] ∧ InstallOutcome read err v)
      (d, []) := by
  simp only [installDomainList, Prog.bind_eq, Prog.perform_bind, Prog.pure_eq]
  refine Sem.ends_traced_call fun _ d₁ stored => ?_
  obtain ⟨heap₁, statics₁⟩ := storeChars_heap live stored
  rw [← statics₁] at empty
  have chars₁ := congrFun heap₁ buf
  rw [Function.update_self] at chars₁
  split
  · rename_i no_line
    refine Sem.ends_traced_call fun _ d₂ freed => Sem.ends_traced_call fun _ d₃ set => Sem.ends_ret ?_
    obtain rfl : d₂ = _ := freed
    obtain rfl : d₃ = _ := set
    exact ⟨rfl, .rejected (by decide) empty (.inl (List.count_eq_zero.mp no_line))⟩
  · rename_i some_line
    have newline : 10#8 ∈ read := List.count_pos_iff.mp (Nat.pos_of_ne_zero some_line)
    refine Sem.ends_traced_call fun lines d₂ allocated => Sem.ends_traced_call fun _ d₃ set => ?_
    obtain rfl : d₃ = _ := set
    cases lines with
    | none =>
      obtain rfl : d₂ = d₁ := allocated
      refine Sem.ends_traced_call fun _ d₄ freed => Sem.ends_traced_call fun _ d₅ set => Sem.ends_ret ?_
      obtain rfl : d₄ = _ := freed
      obtain rfl : d₅ = _ := set
      exact ⟨rfl, .rejected (by decide) empty (.inr rfl)⟩
    | some lines =>
      obtain ⟨fresh, rfl⟩ := allocated
      refine Sem.ends_traced_call fun _ d₄ stored => Sem.ends_traced_call fun _ d₅ stored' =>
        Sem.ends_traced_call fun _ d₆ set => Sem.ends_ret ⟨rfl, .published rfl newline rfl ?_⟩
      obtain ⟨chars₅, ptrs₅, statics₅⟩ :=
        stores_heap stored stored' (heap_withBlock_of_fresh fresh chars₁) (Function.update_self ..)
      obtain rfl : d₆ = _ := set
      refine ⟨rfl, lines, ?_, strings_eq chars₅ ptrs₅⟩
      simp [statics₅]

/-- A size that is positive is the file's. -/
theorem toNat_fileSize {size : Int} {bytes : List Byte} (measured : size = bytes.length ∧ bytes.length < 2 ^ 31 ∨ size = -1)
    (positive : ¬ size ≤ 0) : size.toNat = bytes.length := by
  omega

/-- Reading an opened list stops before the `fread`, or makes of what it gave what the installation does. -/
theorem readDomainList_outcome (f : DomainFile) {d : Device} (empty : d.statics.domainCount = 0) :
    (deviceSem short).traced.Ends (readDomainList f) (fun err v =>
      (err ≠ .ok ∧ v.1.statics.domainCount = 0 ∧ reads v.2 = [] ∧
        (d.fileBytes f ≠ [] → v.2.any (hindered d.files) = true)) ∨
      ∃ read, Device.ReadOf short (d.fileBytes f) read ∧ reads v.2 = [(f, read)] ∧ InstallOutcome read err v) (d, []) := by
  simp only [readDomainList, Prog.bind_eq, Prog.perform_bind, Prog.pure_eq]
  refine Sem.ends_traced_call fun size d₁ done => ?_
  obtain ⟨measured, same⟩ := done
  subst same
  split
  · rename_i blank
    refine Sem.ends_ret (.inl ⟨by decide, empty, rfl, fun full => ?_⟩)
    rcases measured with ⟨whole, -⟩ | refused
    · rw [whole] at blank
      exact absurd (List.length_eq_zero_iff.mp (Int.ofNat_eq_zero.mp (Int.le_antisymm blank (Int.natCast_nonneg _)))) full
    · simp [hindered, refused]
  · rename_i positive
    have size_eq := toNat_fileSize measured positive
    refine Sem.ends_traced_call fun buf d₂ allocated => Sem.ends_traced_call fun _ d₃ set => ?_
    cases buf with
    | none =>
      obtain rfl : d₃ = _ := set
      obtain rfl : d₂ = d₁ := allocated
      exact Sem.ends_ret (.inl ⟨by decide, empty, rfl, fun _ => by simp [hindered, failedAlloc]⟩)
    | some buf =>
      obtain ⟨-, junk, -, rfl⟩ := allocated
      have files : d₃.fileBytes f = d₁.fileBytes f := by rw [show d₃ = _ from set]; rfl
      have live : d₃.heap buf = some (.chars junk) := by rw [show d₃ = _ from set]; exact Function.update_self ..
      have empty₃ : d₃.statics.domainCount = 0 := by rw [show d₃ = _ from set]; exact empty
      refine Sem.ends_traced_call fun read d₄ done => ?_
      obtain ⟨got, same⟩ := done
      subst same
      rw [files, size_eq, List.take_length] at got
      refine (installDomainList_outcome live empty₃ read).mono fun err v => ?_
      rintro ⟨none_read, outcome⟩
      refine .inr ⟨read, got, ?_, outcome.behind [_, _, _, _] rfl⟩
      simp [reads_cons, readOf, none_read]

/-- Freeing the loaded list leaves none, and reads and allocates nothing. -/
theorem releaseDomainList_ends (d : Device) : (deviceSem short).traced.Ends releaseDomainList (fun _ v =>
    SamePersistent d v.1 ∧ v.1.statics.mounted = d.statics.mounted ∧ v.1.statics.domainCount = 0 ∧
      v.2.any failedAlloc = false ∧ reads v.2 = []) (d, []) := by
  have volatile : releaseDomainList.Only Volatile := releaseDomainList_listLoads.mono fun _ h => h.1
  have cleared : (deviceSem short).Ends releaseDomainList (fun _ d' => d'.statics.domainCount = 0) d := by
    simp only [releaseDomainList, Prog.bind_eq]
    refine Sem.ends_bind fun _ d₁ _ => Sem.ends_bind fun _ d₂ _ => Sem.ends_call fun _ d₃ set => Sem.ends_ret ?_
    obtain rfl : d₃ = _ := set
    rfl
  refine (((ends_samePersistent volatile d).traced []).and (((releaseDomainList_mounted d).traced []).and ((cleared.traced []).and
    (Sem.ends_traced_only releaseDomainList_releases d)))).mono fun _ v => ?_
  rintro ⟨same, kept, empty, releases⟩
  have quiet : ∀ e ∈ v.2, failedAlloc e = false ∧ readOf e = none := by
    rintro ⟨op, r⟩ member
    have one := releases _ member
    cases op with
    | readStatics | free | assign => exact ⟨rfl, rfl⟩
    | _ => exact one.elim
  refine ⟨same, kept, empty, List.any_eq_false.mpr fun e member => ?_, List.filterMap_eq_nil_iff.mpr fun e member => ?_⟩
  · simp [(quiet e member).1]
  · exact (quiet e member).2

/-- What opening the list comes to: no file, or one that is there. -/
inductive OpenOutcome (d : Device) (tr : List Event) : Option DomainFile → Prop where
  | missing (cause : d.fileBytes d.listFile ≠ [] → tr.any (hindered d.files) = true) : OpenOutcome d tr none
  | opened {f : DomainFile} (named : f = d.activeFile ∨ f = .legacy)
      (first : f = d.listFile ∨ tr.any (hindered d.files) = true) (present : (d.files f).isSome) : OpenOutcome d tr (some f)

theorem openDomainList_outcome (d : Device) :
    (deviceSem short).traced.Ends (openDomainList (halfOf d.nvs.exactListActiveSlot)) (fun opened v =>
      v.1 = d ∧ reads v.2 = [] ∧ v.2.any failedAlloc = false ∧ OpenOutcome d v.2 opened) (d, []) := by
  simp only [openDomainList, Prog.bind_eq, Prog.perform_bind, Prog.pure_eq]
  refine Sem.ends_traced_call fun opened d₁ done => ?_
  obtain ⟨exists₁, same⟩ := done
  subst same
  cases opened with
  | true =>
    have present : (d₁.files d₁.activeFile).isSome := exists₁ rfl
    exact Sem.ends_ret ⟨rfl, rfl, rfl, .opened (.inl rfl) (.inl (by rw [Device.listFile, if_pos present]; rfl)) present⟩
  | false =>
    -- a refusal to open the active file hinders the load unless there is none
    have missed : hindered d₁.files ⟨.fopenRead d₁.activeFile, false⟩ = true ∨ d₁.listFile = .legacy := by
      by_cases present : (d₁.files d₁.activeFile).isSome
      · exact .inl present
      · exact .inr (by rw [Device.listFile, if_neg present])
    rw [Device.activeFile] at missed
    refine Sem.ends_traced_call fun opened d₂ done => ?_
    obtain ⟨exists₂, same⟩ := done
    subst same
    cases opened with
    | true =>
      refine Sem.ends_ret ⟨rfl, rfl, rfl, .opened (.inr rfl) ?_ (exists₂ rfl)⟩
      rcases missed with hindrance | legacy
      · exact .inr (by simp [hindrance])
      · exact .inl legacy.symm
    | false =>
      refine Sem.ends_ret ⟨rfl, rfl, rfl, .missing fun full => ?_⟩
      rcases missed with hindrance | legacy
      · simp [hindrance]
      · have present : (d₂.files .legacy).isSome := by
          rw [legacy, Device.fileBytes] at full
          cases held : d₂.files .legacy with
          | none => exact absurd (by rw [held]; rfl) full
          | some content => rfl
        simp [hindered, present]

theorem SamePersistent.listFile {d d' : Device} (same : SamePersistent d d') : d'.listFile = d.listFile := by
  rw [Device.listFile, same.files, same.activeFile, Device.listFile]

/-- **What a load comes to**, whatever the device's operations return. -/
theorem sdStorageLoadDomainList_outcome (d : Device) :
    (deviceSem short).traced.Ends sdStorageLoadDomainList (LoadOutcome short d) (d, []) := by
  simp only [sdStorageLoadDomainList, Prog.bind_eq, Prog.perform_bind, Prog.pure_eq]
  refine Sem.ends_traced_bind ((releaseDomainList_ends d).mono ?_)
  rintro _ ⟨d₁, tr⟩ ⟨same, mounted, empty, quiet, none_read⟩
  dsimp only at same mounted empty quiet none_read
  refine Sem.ends_traced_call fun s d₂ done => ?_
  obtain ⟨shown, same₂⟩ := done
  subst same₂ shown
  rw [mounted]
  split
  · refine Sem.ends_traced_call fun slot d₃ done => ?_
    obtain ⟨shown, same₃⟩ := done
    subst same₃ shown
    refine Sem.ends_traced_bind ((openDomainList_outcome d₃).mono ?_)
    rintro opened ⟨d₄, tr'⟩ ⟨same₄, none_read', quiet', opening⟩
    dsimp only at same₄ none_read' quiet' opening
    subst same₄
    have bytes (f : DomainFile) : d₄.fileBytes f = d.fileBytes f := by rw [Device.fileBytes, same.files]; rfl
    cases opening with
    | missing cause =>
      rw [same.listFile, bytes, same.files] at cause
      refine Sem.ends_ret (.unread (by decide) empty ?_ fun _ full => by simp [cause full])
      simp [reads_append, reads_cons, readOf, none_read, none_read']
    | @opened f named first present =>
      rw [same.listFile, same.files] at first
      rw [same.activeFile] at named
      rw [same.files] at present
      refine (readDomainList_outcome f empty).mono fun err v => ?_
      rw [bytes, same.files]
      rintro (⟨failed, still, unread, cause⟩ | ⟨read, got, reads_eq, outcome⟩)
      · refine .unread failed still ?_ fun _ full => ?_
        · simp [reads_append, reads_cons, readOf, none_read, none_read', unread]
        · rcases first with rfl | hindrance
          · simp [cause full]
          · simp [hindrance]
      · refine .read named (first.imp_right fun hindrance => by simp [hindrance]) present got ?_ ?_
        · simp [reads_append, reads_cons, readOf, none_read, none_read', reads_eq]
        · have before : (tr ++ ⟨.readStatics, d₄.statics⟩ :: ⟨.getListSlot, d₄.nvs.exactListActiveSlot⟩ :: tr').any
              failedAlloc = false := by
            simp [failedAlloc, quiet, quiet']
          simpa using outcome.behind _ before
  · rename_i unmounted
    exact Sem.ends_ret (.unread (by decide) empty (by rw [reads_append, none_read]; rfl)
      fun mounted' => absurd mounted' unmounted)

/-- **A load that succeeds** publishes what it read, from one file that is there. -/
theorem LoadOutcome.of_ok {d : Device} {v : Device × List Event} (outcome : LoadOutcome short d .ok v) : ∃ f read,
    (d.files f).isSome ∧ Device.ReadOf short (d.fileBytes f) read ∧ reads v.2 = [(f, read)] ∧ ListLoaded read v.1 := by
  cases outcome with
  | unread failed => exact absurd rfl failed
  | @read f read _ _ present got asked outcome =>
    cases outcome with
    | rejected failed => exact absurd rfl failed
    | published _ _ _ loaded => exact ⟨f, read, present, got, asked, loaded⟩

end

end EspAdblocker.Storage
