import EspAdblocker.Storage.AllowlistLoops
import EspAdblocker.Storage.Membership

/-!
# Stores that fit

The two loaders store a text, split in place, and the pointers into it. Whatever
the device returns on the way, every store finds its block live and with room for
it (`sdStorageLoadDomainList_fits`, `dnsProxyReloadAllowlist_fits`); and where memory
is not used up a load runs to its end with nothing refused (`exists_unhindered_load`).
-/

namespace EspAdblocker.Storage

open EspAdblocker.Lib

section

variable {short : Bool} {α β : Type} {P : Op → Prop}

variable (short P) in
/-- From `d` the program performs operations of `P` alone, none of them undefined behaviour. -/
def Fits (p : DeviceM α) (d : Device) : Prop :=
  (deviceSem short).Safe (fun _ => True) (fun v op => v.Defined op ∧ P op) p (fun _ _ => True) d

theorem fits_ret (a : α) (d : Device) : Fits short P (.ret a) d := ⟨trivial, trivial⟩

theorem fits_call {op : Op} {k : Res op → DeviceM α} {d : Device} (defined : d.Defined op) (one : P op)
    (rest : ∀ r d', (deviceSem short).step d op r d' → Fits short P (k r) d') : Fits short P (.call op k) d :=
  Sem.safe_call trivial ⟨defined, one⟩ (fun _ _ => trivial) rest

theorem fits_bind {p : DeviceM α} {f : α → DeviceM β} {d : Device} (first : Fits short P p d)
    (second : ∀ a d', Fits short P (f a) d') : Fits short P (p.bind f) d :=
  Sem.safe_bind (first.mono fun a d' _ _ => second a d')

/-- Operations that no state makes undefined. -/
theorem fits_of_only {p : DeviceM α} (only : p.Only fun op => P op ∧ ∀ d : Device, d.Defined op) (d : Device) :
    Fits short P p d :=
  Sem.safe_of_only only (fun _ _ _ _ _ _ _ => trivial) (fun _ _ _ _ _ _ => trivial)
    (fun v _ one _ => ⟨one.2 v, one.1⟩) trivial

theorem Fits.mono {P' : Op → Prop} {p : DeviceM α} {d : Device} (fits : Fits short P p d)
    (implies : ∀ op, P op → P' op) : Fits short P' p d :=
  fits.weaken (fun _ here => here) fun _ op _ one => ⟨one.1, implies op one.2⟩

/-- What such a program performs is defined. -/
theorem Fits.performs {p : DeviceM α} {d v : Device} {op : Op} (fits : Fits short P p d)
    (does : (deviceSem short).Performs p d v op) : v.Defined op ∧ P op := by
  have safe : (deviceSem short).Safe (fun _ => True) (fun v op => v.Defined op ∧ P op) p (fun _ _ => True) d := fits
  exact safe.performs does

/-! ## Storing a text and the pointers into it -/

/-- A store that fits leaves a block of the same size. -/
theorem storeChars_live {d d' : Device} {block : Nat} {bytes old : List Byte} {r : Unit}
    (live : d.heap block = some (.chars old)) (fit : bytes.length ≤ old.length)
    (stored : (deviceSem short).step d (.storeChars block bytes) r d') :
    ∃ now, d'.heap block = some (.chars now) ∧ now.length = old.length := by
  have heap := congrFun (storeChars_heap live stored).1 block
  rw [Function.update_self] at heap
  refine ⟨_, heap, ?_⟩
  rw [List.length_append, List.length_drop]
  omega

/-- The stores of a split text, both of which fit. -/
theorem fits_stores {buf lines : Nat} {old : List Byte} {slots : List (Option CharPtr)} {bytes : List Byte}
    {pointers : List CharPtr} {k : DeviceM α} {d : Device} (chars : P (.storeChars buf bytes))
    (ptrs : P (.storePtrs lines pointers)) (text : d.heap buf = some (.chars old)) (fit : bytes.length ≤ old.length)
    (array : d.heap lines = some (.ptrs slots)) (room : pointers.length ≤ slots.length)
    (rest : ∀ d', Fits short P k d') :
    Fits short P (.call (.storeChars buf bytes) fun _ => .call (.storePtrs lines pointers) fun _ => k) d := by
  refine fits_call ⟨old, text, fit⟩ chars fun _ d₁ stored => ?_
  have apart : lines ≠ buf := by
    rintro rfl
    rw [text] at array
    cases array
  have array₁ : d₁.heap lines = some (.ptrs slots) := by
    rw [(storeChars_heap text stored).1, Function.update_of_ne apart, array]
  exact fits_call ⟨slots, array₁, room⟩ ptrs fun _ d₂ _ => rest d₂

/-! ## The exact list -/

/-- What reading an opened list performs: the file that is measured is the one that was opened. -/
def ReadsList (f : DomainFile) : Op → Prop
  | .fileSize g | .fread g _ => g = f
  | .mallocChars _ | .mallocPtrs _ | .free _ | .storeChars _ _ | .storePtrs _ _ | .assign _ => True
  | _ => False

theorem ReadsList.volatile {f : DomainFile} {op : Op} (h : ReadsList f op) : Volatile op := by
  cases op <;> trivial

theorem installDomainList_fits {f : DomainFile} {buf : Nat} {junk read : List Byte} {d : Device}
    (live : d.heap buf = some (.chars junk)) (fit : read.length + 1 ≤ junk.length) :
    Fits short (ReadsList f) (installDomainList buf read) d := by
  have terminated : (read ++ [0#8]).length ≤ junk.length := by simpa using fit
  simp only [installDomainList, Prog.bind_eq, Prog.perform_bind, Prog.pure_eq]
  refine fits_call ⟨junk, live, terminated⟩ trivial fun _ d₁ stored => ?_
  obtain ⟨now, live₁, same⟩ := storeChars_live live terminated stored
  split
  · exact fits_call trivial trivial fun _ _ _ => fits_call trivial trivial fun _ _ _ => fits_ret _ _
  refine fits_call trivial trivial fun lines d₂ allocated => fits_call trivial trivial fun _ d₃ set => ?_
  cases lines with
  | none => exact fits_call trivial trivial fun _ _ _ => fits_call trivial trivial fun _ _ _ => fits_ret _ _
  | some lines =>
    obtain ⟨fresh, rfl⟩ := allocated
    obtain rfl : d₃ = _ := set
    have behind := splitLines_behind (· == 10#8) (read ++ [0#8]) read.length
    have inside : read.length ≤ (read ++ [0#8]).length := by simp
    have counted := length_starts_le (· == 10#8) (read ++ [0#8]) inside
    rw [List.take_left] at counted
    refine fits_stores trivial trivial (heap_withBlock_of_fresh fresh live₁) ?_ (Function.update_self ..) ?_
      fun _ => fits_call trivial trivial fun _ _ _ => fits_ret _ _
    · rw [behind.length, same]
      exact terminated
    · rw [List.length_map, List.length_replicate]
      exact counted

theorem readDomainList_fits (f : DomainFile) (d : Device) : Fits short (ReadsList f) (readDomainList f) d := by
  simp only [readDomainList, Prog.bind_eq, Prog.perform_bind, Prog.pure_eq]
  refine fits_call trivial rfl fun size d₁ _ => ?_
  split
  · exact fits_ret _ _
  refine fits_call trivial trivial fun buf d₂ allocated => fits_call trivial trivial fun _ d₃ set => ?_
  cases buf with
  | none => exact fits_ret _ _
  | some buf =>
    obtain ⟨-, junk, measured, rfl⟩ := allocated
    obtain rfl : d₃ = _ := set
    refine fits_call trivial rfl fun read d₄ done => ?_
    obtain ⟨⟨start, -⟩, rfl⟩ := done
    have fit : read.length ≤ size.toNat := Nat.le_trans start.length_le (List.length_take_le ..)
    refine installDomainList_fits (Function.update_self ..) ?_
    rw [measured]
    exact Nat.succ_le_succ fit

theorem Releases.defined {op : Op} (h : Releases op) (d : Device) : d.Defined op := by
  cases op <;> trivial

/-- **No store of a load leaves its block**, whatever the card and the heap answer. -/
theorem sdStorageLoadDomainList_fits (d : Device) : Fits short (fun _ => True) sdStorageLoadDomainList d := by
  simp only [sdStorageLoadDomainList, openDomainList, Prog.bind_eq, Prog.perform_bind, Prog.pure_eq]
  have release : releaseDomainList.Only fun op => True ∧ ∀ d : Device, d.Defined op :=
    releaseDomainList_releases.mono fun _ releases => ⟨trivial, releases.defined⟩
  refine fits_bind (fits_of_only release d) fun _ d₁ => fits_call trivial trivial fun s d₂ _ => ?_
  split
  · refine fits_call trivial trivial fun slot d₃ _ => fits_bind ?_ fun opened d₄ => ?_
    · refine fits_call trivial trivial fun opened d₄ _ => ?_
      split
      · exact fits_ret _ _
      · refine fits_call trivial trivial fun opened d₅ _ => ?_
        split <;> exact fits_ret _ _
    · split
      · exact fits_ret _ _
      · exact (readDomainList_fits _ d₄).mono fun _ _ => trivial
  · exact fits_ret _ _

/-! ## The allowlist -/

theorem installAllowlist_fits {buf : Nat} {junk text : List Byte} {d : Device} (live : d.heap buf = some (.chars junk))
    (fit : text.length + 1 ≤ junk.length) : Fits short LoadsAllowlist (installAllowlist buf text) d := by
  have terminated : (text ++ [0#8]).length ≤ junk.length := by simpa using fit
  obtain ⟨rest, stored⟩ := exists_append_nul text
  have behind := splitLines_behind endsAllowlistLine (text ++ [0#8]) ((cstr text).length + 1)
  have counted := length_starts_le_lines rest (nulFree_cstr text)
  rw [← stored] at counted
  simp only [installAllowlist, Prog.bind_eq, Prog.perform_bind]
  refine fits_call ⟨junk, live, terminated⟩ trivial fun _ d₁ stored => fits_call trivial trivial fun entries d₂ allocated => ?_
  obtain ⟨now, live₁, same⟩ := storeChars_live live terminated stored
  cases entries with
  | none => exact fits_call trivial trivial fun _ _ _ => fits_ret _ _
  | some entries =>
    obtain ⟨fresh, rfl⟩ := allocated
    refine fits_stores trivial trivial (heap_withBlock_of_fresh fresh live₁) ?_ (Function.update_self ..) ?_ fun _ =>
      fits_call trivial trivial fun _ _ _ => fits_call trivial trivial fun _ _ _ => fits_call trivial trivial fun _ _ _ =>
        fits_ret _ _
    · change (splitLines endsAllowlistLine (text ++ [0#8]) ((cstr text).length + 1)).buf.length ≤ now.length
      rw [behind.length, same]
      exact terminated
    · rw [List.length_map, List.length_replicate]
      exact counted

/-- A text that is fetched fits its buffer. -/
theorem length_lt_of_allowlistText {nvs : Nvs} {text : List Byte} (fetched : nvs.allowlistText = some text) :
    text.length < 2048 :=
  of_decide_eq_true (Option.filter_eq_some_iff.mp fetched).2

/-- **No store of a reload of the allowlist leaves its block.** -/
theorem dnsProxyReloadAllowlist_fits (d : Device) : Fits short LoadsAllowlist dnsProxyReloadAllowlist d := by
  simp only [dnsProxyReloadAllowlist, Prog.bind_eq, Prog.perform_bind, Prog.pure_eq]
  have release : releaseAllowlist.Only fun op => LoadsAllowlist op ∧ ∀ d : Device, d.Defined op :=
    releaseAllowlist_only ⟨trivial, fun _ => trivial⟩ (fun _ => ⟨trivial, fun _ => trivial⟩)
      fun _ => ⟨trivial, fun _ => trivial⟩
  refine fits_bind (fits_of_only release d) fun _ d₁ => fits_call trivial trivial fun buf d₂ allocated => ?_
  cases buf with
  | none => exact fits_ret _ _
  | some buf =>
    obtain ⟨-, junk, measured, rfl⟩ := allocated
    refine fits_call trivial trivial fun text d₃ got => ?_
    obtain ⟨fetched, rfl⟩ := got
    cases text with
    | none => exact fits_call trivial trivial fun _ _ _ => fits_ret _ _
    | some text =>
      dsimp only
      split
      · exact fits_call trivial trivial fun _ _ _ => fits_ret _ _
      · have fit := length_lt_of_allowlistText fetched.symm
        refine installAllowlist_fits (Function.update_self ..) ?_
        rw [measured]
        exact fit

end

/-! ## Memory that is not used up -/

/-- There are free blocks above any number. -/
def Device.Roomy (d : Device) : Prop := ∀ n, ∃ block, n ≤ block ∧ d.heap block = none

theorem Device.Roomy.withBlock {d : Device} (roomy : d.Roomy) (block : Nat) (content : Option Block) :
    (d.withBlock block content).Roomy := by
  intro n
  obtain ⟨other, above, free⟩ := roomy (max n (block + 1))
  have apart : other ≠ block := by omega
  exact ⟨other, by omega, (Function.update_of_ne apart ..).trans free⟩

/-- A run in which nothing was hindered was refused no memory. -/
theorem not_failedAlloc_of_unhindered {files : DomainFile → Option (List Byte)} {tr : List Event}
    (quiet : tr.any (hindered files) = false) : tr.any failedAlloc = false := by
  cases refused : tr.any failedAlloc with
  | false => rfl
  | true =>
    rw [hindered_of_failedAlloc files refused] at quiet
    cases quiet

section

variable (short : Bool)

/-- While there are, every operation that is defined can be answered with nothing refused. -/
theorem exists_step {d : Device} {op : Op} (roomy : d.Roomy) (defined : d.Defined op)
    (measured : ∀ f, op = .fileSize f → (d.fileBytes f).length < 2 ^ 31) :
    ∃ r d', (deviceSem short).step d op r d' ∧ d'.Roomy ∧ hindered d.files ⟨op, r⟩ = false := by
  cases op with
  | mallocChars size =>
    obtain ⟨block, -, free⟩ := roomy 0
    exact ⟨some block, _, ⟨free, List.replicate size 0#8, List.length_replicate, rfl⟩, roomy.withBlock _ _, rfl⟩
  | mallocPtrs count =>
    obtain ⟨block, -, free⟩ := roomy 0
    exact ⟨some block, _, ⟨free, rfl⟩, roomy.withBlock _ _, rfl⟩
  | mmap h => exact ⟨none, d, rfl, roomy, rfl⟩
  | free block => exact ⟨(), _, rfl, roomy.withBlock _ _, rfl⟩
  | storeChars | storePtrs =>
    obtain ⟨old, live, fit⟩ := defined
    exact ⟨(), _, ⟨old, live, fit, rfl⟩, roomy.withBlock _ _, rfl⟩
  | abort fault => exact defined.elim
  | fopenRead f => exact ⟨(d.files f).isSome, d, ⟨id, rfl⟩, roomy, by simp [hindered]⟩
  | fileSize f => exact ⟨(d.fileBytes f).length, d, ⟨.inl ⟨rfl, measured f rfl⟩, rfl⟩, roomy, by simp [hindered]⟩
  | _ => exact ⟨_, _, Device.ideal_step short (fun _ => .noClient) rfl, roomy, rfl⟩

/-- A program that stays defined and keeps the files has a run in which nothing is refused. -/
theorem Fits.exists_run {P : Op → Prop} {α : Type} {p : DeviceM α} {d : Device} (fits : Fits short P p d)
    (volatile : ∀ op, P op → Volatile op) (measured : ∀ f, P (.fileSize f) → (d.fileBytes f).length < 2 ^ 31)
    (roomy : d.Roomy) :
    ∃ a d' tr, (deviceSem short).traced.Runs p (d, []) a (d', tr) ∧ d'.Roomy ∧ tr.any (hindered d.files) = false := by
  have answers (v : Device) (op : Op) (one : v.Defined op ∧ P op) (here : v.Roomy ∧ v.files = d.files) :
      ∃ r v', (deviceSem short).step v op r v' ∧ (v'.Roomy ∧ v'.files = d.files) ∧ hindered d.files ⟨op, r⟩ = false := by
    have size (f : DomainFile) (same : op = .fileSize f) : (v.fileBytes f).length < 2 ^ 31 := by
      rw [Device.fileBytes, here.2]
      exact measured f (same ▸ one.2)
    obtain ⟨r, v', step, there, event⟩ := exists_step short here.1 one.1 size
    exact ⟨r, v', step, ⟨there, ((volatile op one.2).step step).files.trans here.2⟩, here.2 ▸ event⟩
  obtain ⟨a, d', tr, run, there, quiet⟩ :=
    Sem.Safe.exists_run (E := fun e => hindered d.files e = false) answers fits ⟨roomy, rfl⟩
  exact ⟨a, d', tr, run, there.1, List.any_eq_false.mpr fun e member => by simp [quiet e member]⟩

end

/-- The list can be opened where it is. -/
theorem exists_unhindered_open (short : Bool) {d : Device} (present : (d.files d.listFile).isSome) :
    ∃ tr, (deviceSem short).traced.Runs (openDomainList (halfOf d.nvs.exactListActiveSlot)) (d, []) (some d.listFile)
      (d, tr) ∧ tr.any (hindered d.files) = false := by
  simp only [openDomainList, Prog.bind_eq, Prog.perform_bind, Prog.pure_eq]
  by_cases active : (d.files d.activeFile).isSome
  · have opens : (deviceSem short).step d (.fopenRead d.activeFile) true d := ⟨fun _ => active, rfl⟩
    refine ⟨[⟨.fopenRead d.activeFile, true⟩], ?_, by simp [hindered]⟩
    rw [Device.listFile, if_pos active]
    exact Sem.runs_traced_call opens ⟨rfl, rfl⟩
  · rw [Device.listFile, if_neg active] at present ⊢
    have misses : (deviceSem short).step d (.fopenRead d.activeFile) false d := by simp [deviceSem, Device.step]
    have opens : (deviceSem short).step d (.fopenRead .legacy) true d := ⟨fun _ => present, rfl⟩
    refine ⟨[⟨.fopenRead d.activeFile, false⟩, ⟨.fopenRead .legacy, true⟩], ?_, by simpa [hindered] using active⟩
    exact Sem.runs_traced_call misses (Sem.runs_traced_call opens ⟨rfl, rfl⟩)

/-- **A load that nothing hinders exists** wherever memory is not used up. -/
theorem exists_unhindered_load (short : Bool) {d : Device} {content : List Byte} (mounted : d.statics.mounted = true)
    (holds : d.files d.listFile = some content) (small : content.length < 2 ^ 31) (roomy : d.Roomy) :
    ∃ err d' tr, (deviceSem short).traced.Runs sdStorageLoadDomainList (d, []) err (d', tr) ∧
      tr.any (hindered d.files) = false := by
  have release : Fits short Releases releaseDomainList d :=
    fits_of_only (releaseDomainList_releases.mono fun _ releases => ⟨releases, releases.defined⟩) d
  obtain ⟨⟨⟩, d₁, tr₁, released, roomy₁, quiet₁⟩ := release.exists_run short
    (fun op releases => by cases op <;> trivial) (fun f impossible => impossible.elim) roomy
  obtain ⟨same, mounted₁, -⟩ := releaseDomainList_ends d _ _ released
  have mounted₁ : d₁.statics.mounted = true := mounted₁.trans mounted
  have holds₁ : d₁.files d₁.listFile = some content := by rw [same.listFile, show d₁.files = d.files from same.files, holds]
  have bytes : d₁.fileBytes d₁.listFile = content := by rw [Device.fileBytes, holds₁, Option.getD_some]
  obtain ⟨tr₂, opened, quiet₂⟩ := exists_unhindered_open short (d := d₁) (by rw [holds₁]; rfl)
  obtain ⟨err, d', tr₃, read, -, quiet₃⟩ := (readDomainList_fits d₁.listFile d₁).exists_run short
    (fun op reading => reading.volatile) (fun f measures => by rw [show f = _ from measures, bytes]; exact small) roomy₁
  rw [show d₁.files = d.files from same.files] at quiet₂ quiet₃
  refine ⟨err, d', tr₁ ++ ⟨.readStatics, d₁.statics⟩ :: ⟨.getListSlot, d₁.nvs.exactListActiveSlot⟩ :: (tr₂ ++ tr₃), ?_, ?_⟩
  · simp only [sdStorageLoadDomainList, Prog.bind_eq, Prog.perform_bind, Prog.pure_eq]
    refine Sem.runs_traced_bind released (Sem.runs_traced_call ⟨rfl, rfl⟩ ?_)
    rw [if_pos mounted₁]
    exact Sem.runs_traced_call ⟨rfl, rfl⟩ (Sem.runs_traced_bind opened read)
  · simp [hindered, failedAlloc, quiet₁, quiet₂, quiet₃]

end EspAdblocker.Storage
