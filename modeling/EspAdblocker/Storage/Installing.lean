import EspAdblocker.Storage.Membership
import EspAdblocker.Storage.PowerLoss

/-!
# Updates that succeed

What an update leaves when it returns no error. The download loops collect the
body of a response however the network cuts it up (`readBody_eq`). The image in
the active partition is the body that was fetched, as far as the partition's
size goes, and passed the checks (`updateBloom_installs`); the active list file
is one whose digest was the one fetched, and if nothing hindered the load it is
the list that is loaded (`updateDomainList_installs`).
-/

namespace EspAdblocker.Storage

open EspAdblocker.Lib EspAdblocker.Bloom

/-! ## Bodies -/

/-- The body of a response: what successive reads return, up to the first that returns nothing. -/
def bodyOf (chunks : List (List Byte)) : List Byte := (chunks.takeWhile (· ≠ [])).flatten

@[simp] theorem bodyOf_nil : bodyOf [] = [] := rfl

@[simp] theorem bodyOf_cons_nil (chunks : List (List Byte)) : bodyOf ([] :: chunks) = [] := rfl

theorem bodyOf_cons {chunk : List Byte} (some_bytes : chunk ≠ []) (chunks : List (List Byte)) :
    bodyOf (chunk :: chunks) = chunk ++ bodyOf chunks := by
  rw [bodyOf, List.takeWhile_cons_of_pos (by simpa using some_bytes), List.flatten_cons, bodyOf]

/-- The read loop goes on with the body, up to the capacity. -/
theorem readBody_append {cap : Nat} {written : List Byte} (fits : written.length ≤ cap) (chunks : List (List Byte)) :
    readBody cap written chunks = (written ++ bodyOf chunks).take cap := by
  induction chunks generalizing written with
  | nil => rw [readBody, bodyOf_nil, List.append_nil, List.take_of_length_le fits]
  | cons chunk chunks ih =>
    rw [readBody]
    split
    · rename_i room
      by_cases empty : chunk = []
      · rw [empty, List.take_nil, if_pos rfl, bodyOf_cons_nil, List.append_nil, List.take_of_length_le fits]
      · have some_read : chunk.take (cap - written.length) ≠ [] := by
          rw [ne_eq, List.take_eq_nil_iff, not_or]
          exact ⟨by omega, empty⟩
        have fits' : (written ++ chunk.take (cap - written.length)).length ≤ cap := by
          rw [List.length_append, List.length_take]
          omega
        dsimp only
        rw [if_neg some_read, ih fits', bodyOf_cons empty]
        by_cases whole : chunk.length ≤ cap - written.length
        · rw [List.take_of_length_le whole, List.append_assoc]
        · -- the chunk fills the buffer, so what follows it is cut off
          have full : (written ++ chunk.take (cap - written.length)).length = cap := by
            rw [List.length_append, List.length_take]
            omega
          rw [List.take_left' full, ← List.append_assoc, List.take_append_of_le_length (by rw [List.length_append]; omega),
            List.take_append, List.take_of_length_le fits]
    · rename_i full
      rw [List.take_append_of_le_length (by omega), List.take_of_length_le fits]

/-- **The read loop collects the body**, cut to the capacity: where the network cuts it makes no difference. -/
theorem readBody_eq (cap : Nat) (chunks : List (List Byte)) : readBody cap [] chunks = (bodyOf chunks).take cap :=
  readBody_append (Nat.zero_le cap) chunks

/-! ## The filter -/

/-- The image that a partition starts with passed the checks. -/
structure ImageInstalled (image : List Byte) (d : Device) : Prop where
  checked : ∃ f, PassesChecks image f
  stored : ∃ rest, d.flash d.activePartition = image ++ rest
  serving : BloomServing d

/-- The active partition holds a body that was fetched, cut to some capacity. -/
def BloomInstalled (url : List Byte) (v : Device × List Event) : Prop :=
  ∃ chunks cap, (⟨.httpGet url, .response 200 chunks⟩ : Event) ∈ v.2 ∧ ImageInstalled ((bodyOf chunks).take cap) v.1

section

variable {short : Bool}

theorem flashImage_ends (h : Half) (image : List Byte) (d : Device) :
    (deviceSem short).Ends (flashImage h image) (fun err d' => err = .ok → ∃ rest, d'.flash h = image ++ rest) d := by
  simp only [flashImage, Prog.bind_eq, Prog.perform_bind, Prog.pure_eq]
  refine Sem.ends_call fun err d₁ _ => ?_
  split
  · refine Sem.ends_call fun err d₂ written => Sem.ends_ret ?_
    rintro rfl
    simp only [deviceSem, Device.step, if_true] at written
    exact ⟨_, by rw [written]; exact Function.update_self ..⟩
  · rename_i failed
    exact Sem.ends_ret fun ok => absurd ok failed

theorem activateBloom_installs {seedLen : BitVec 32} {target : BitVec 8} {image rest : List Byte} {f : BloomFilter}
    {d : Device} (checks : PassesChecks image f) (written : d.flash (halfOf target) = image ++ rest) :
    (deviceSem short).Ends (activateBloom seedLen target) (fun err d' => err = .ok → ImageInstalled image d') d := by
  simp only [activateBloom, Prog.bind_eq, Prog.perform_bind, Prog.pure_eq]
  refine Sem.ends_call fun err d₁ stored => ?_
  split
  · rename_i ok
    obtain rfl : d₁ = { d with nvs := { d.nvs with bloomSlot := some target } } := by
      simpa [deviceSem, Device.step, ok] using stored
    refine Sem.ends_bind ((dnsProxyReloadBloomFilter_ends seedLen _).mono fun _ d₂ => ?_)
    rintro ⟨kept, serving⟩
    refine Sem.ends_ret fun _ => ⟨⟨f, checks⟩, ⟨rest, ?_⟩, serving⟩
    rw [kept.activePartition, kept.flash]
    exact written
  · rename_i failed
    exact Sem.ends_ret fun ok => absurd ok failed

theorem installBloom_installs (seedLen : BitVec 32) (target : BitVec 8) (buf : Nat) (image : List Byte) (d : Device) :
    (deviceSem short).Ends (installBloom seedLen target buf image) (fun err d' => err = .ok → ImageInstalled image d') d := by
  simp only [installBloom, computeCrc, Prog.bind_eq, Prog.perform_bind, Prog.pure_eq]
  split
  · exact Sem.ends_call fun _ d₁ _ => Sem.ends_ret fun impossible => by cases impossible
  rename_i filter accepted
  split
  · rename_i inside
    rw [Prog.ret_bind]
    split
    · rename_i crc
      refine Sem.ends_bind ((flashImage_ends (halfOf target) image d).mono fun err d₁ written => ?_)
      refine Sem.ends_call fun _ d₂ freed => ?_
      obtain rfl : d₂ = _ := freed
      split
      · rename_i ok
        obtain ⟨rest, stored⟩ := written ok
        exact activateBloom_installs ⟨accepted, inside, crc⟩ stored
      · rename_i failed
        exact Sem.ends_ret fun ok => absurd ok failed
    · exact Sem.ends_call fun _ d₁ _ => Sem.ends_ret fun impossible => by cases impossible
  · exact Sem.ends_call fun impossible => by cases impossible

/-- **A filter update that succeeds** leaves the body it fetched in the active partition. -/
theorem updateBloom_installs (seedLen : BitVec 32) (baseUrl : List Byte) (d : Device) :
    (deviceSem short).traced.Ends (updateBloom seedLen baseUrl)
      (fun err v => err = .ok → BloomInstalled (urlOf baseUrl "/bloom.bin") v) (d, []) := by
  simp only [updateBloom, Prog.bind_eq, Prog.perform_bind, Prog.pure_eq]
  refine Sem.ends_traced_call fun slot d₁ _ => Sem.ends_traced_call fun size d₂ _ => ?_
  split
  · exact Sem.ends_ret fun impossible => by cases impossible
  rename_i size _
  refine Sem.ends_traced_call fun buf d₃ _ => ?_
  split
  · exact Sem.ends_ret fun impossible => by cases impossible
  rename_i buf _
  simp only [httpGetToBuffer, Prog.bind_eq, Prog.perform_bind, Prog.pure_eq, Prog.call_bind]
  refine Sem.ends_traced_call fun reply d₄ _ => ?_
  have refused {Q : EspErr → Device × List Event → Prop} (next : ∀ v, Q .fail v) :
      (deviceSem short).traced.Ends (.call (.free buf) fun _ => .ret .fail) Q (d₄, []) :=
    Sem.ends_traced_call fun _ d₅ _ => Sem.ends_ret (next _)
  cases reply with
  | noClient => exact refused fun _ impossible => by cases impossible
  | openFailed => exact refused fun _ impossible => by cases impossible
  | response status chunks =>
    by_cases found : status = 200
    · subst found
      simp only [if_true, Prog.ret_bind]
      split
      · exact refused fun _ impossible => by cases impossible
      · rw [readBody_eq]
        refine ((installBloom_installs seedLen _ buf _ d₄).traced []).mono fun err v installed ok => ?_
        exact ⟨chunks, size.toNat, by simp, installed ok⟩
    · simp only [if_neg found, Prog.ret_bind]
      exact refused fun _ impossible => by cases impossible

/-! ## The list -/

/-- The active file is one that was read back with the digest that was fetched; it
is loaded, if nothing hindered the load. -/
structure ListInstalled (sha : Sha256) (url : List Byte) (v : Device × List Event) : Prop where
  checked : ∃ chunks f content, (⟨.httpGet url, .response 200 chunks⟩ : Event) ∈ v.2 ∧
    (⟨.readAll f, content⟩ : Event) ∈ v.2 ∧ hexEncodeLower (sha.run content) = ((bodyOf chunks).take 64).map toLowerByte ∧
    v.1.files v.1.activeFile = some content ∧ (v.2.any (hindered v.1.files) = false → ListLoaded content v.1)

/-- A load of the active file that nothing hindered. -/
theorem load_active {d : Device} {content : List Byte} (present : d.files d.activeFile = some content) :
    (deviceSem false).traced.Ends sdStorageLoadDomainList (fun err v => err = .ok → SamePersistent d v.1 ∧
      (v.2.any (hindered d.files) = false → ListLoaded content v.1)) (d, []) := by
  have volatile : (deviceSem false).Ends sdStorageLoadDomainList (fun _ d' => SamePersistent d d') d :=
    ends_samePersistent (sdStorageLoadDomainList_listLoads.mono fun _ h => h.1) d
  refine ((volatile.traced []).and (sdStorageLoadDomainList_outcome d)).mono ?_
  rintro err v ⟨kept, outcome⟩ ok
  refine ⟨kept, fun unhindered => ?_⟩
  cases outcome with
  | unread failed => exact absurd ok failed
  | @read f read _ first _ got _ outcome =>
    have listed : d.listFile = d.activeFile := by rw [Device.listFile, present]; rfl
    obtain rfl : f = d.listFile := first.resolve_right fun hindrance => by rw [unhindered] at hindrance; cases hindrance
    rw [listed, Device.fileBytes, present] at got
    obtain rfl : read = content := got.2 rfl
    cases outcome with
    | rejected failed => exact absurd ok failed
    | published _ _ _ loaded => exact loaded

theorem activateDomainList_installs {d : Device} {target : BitVec 8} {content : List Byte}
    (present : d.files (.half (halfOf target)) = some content) :
    (deviceSem false).traced.Ends (activateDomainList target) (fun err v => err = .ok →
      v.1.files v.1.activeFile = some content ∧ (v.2.any (hindered v.1.files) = false → ListLoaded content v.1)) (d, []) := by
  simp only [activateDomainList, Prog.bind_eq, Prog.perform_bind, Prog.pure_eq]
  refine Sem.ends_traced_call fun err d₁ stored => ?_
  split
  · rename_i ok
    obtain rfl : d₁ = { d with nvs := { d.nvs with listSlot := some target } } := by
      simpa [deviceSem, Device.step, ok] using stored
    have active : Device.files { d with nvs := { d.nvs with listSlot := some target } }
        (Device.activeFile { d with nvs := { d.nvs with listSlot := some target } }) = some content := present
    refine (load_active active).mono fun err v loads ok => ?_
    obtain ⟨kept, loaded⟩ := loads ok
    refine ⟨by rw [kept.files, kept.activeFile]; exact present, fun unhindered => loaded ?_⟩
    rw [kept.files, List.any_cons, Bool.or_eq_false_iff] at unhindered
    exact unhindered.2
  · rename_i failed
    exact Sem.ends_ret fun ok => absurd ok failed

/-- The check of a downloaded list that ends in its activation. -/
theorem checkDomainList_installs (sha : Sha256) (target : BitVec 8) (shaResp : List Byte) (d : Device) :
    (deviceSem false).traced.Ends (checkDomainList sha target shaResp) (fun err v => err = .ok → ∃ f content,
      (⟨.readAll f, content⟩ : Event) ∈ v.2 ∧ hexEncodeLower (sha.run content) = (shaResp.take 64).map toLowerByte ∧
      v.1.files v.1.activeFile = some content ∧ (v.2.any (hindered v.1.files) = false → ListLoaded content v.1)) (d, []) := by
  simp only [checkDomainList, sha256File, Prog.bind_eq, Prog.perform_bind, Prog.pure_eq, Prog.call_bind]
  refine Sem.ends_traced_call fun opened d₁ done => ?_
  obtain ⟨present, same⟩ := done
  subst same
  cases opened with
  | false =>
    rw [Prog.ret_bind]
    exact Sem.ends_traced_call fun _ d₂ _ => Sem.ends_ret fun impossible => by cases impossible
  | true =>
    rw [Prog.call_bind]
    refine Sem.ends_traced_call fun read d₂ done => ?_
    obtain ⟨got, same⟩ := done
    subst same
    simp only [Prog.ret_bind]
    obtain ⟨content, stored⟩ := Option.isSome_iff_exists.mp (present rfl)
    rw [Device.fileBytes, stored, Option.getD_some] at got
    obtain rfl : read = content := got.2 rfl
    split
    · exact Sem.ends_traced_call fun _ d₃ _ => Sem.ends_ret fun impossible => by cases impossible
    · rename_i matched
      have digest := eq_of_strncmp_hex (by simp) (not_not.mp matched)
      refine (activateDomainList_installs stored).mono fun err v installs ok => ?_
      obtain ⟨active, loaded⟩ := installs ok
      refine ⟨_, read, by simp, digest, active, fun unhindered => loaded ?_⟩
      rw [List.any_cons, List.any_cons, Bool.or_eq_false_iff, Bool.or_eq_false_iff] at unhindered
      exact unhindered.2.2

/-- **A list update that succeeds** leaves the list whose digest it fetched in the active file, and loaded. -/
theorem updateDomainList_installs (sha : Sha256) (baseUrl : List Byte) (d : Device) :
    (deviceSem false).traced.Ends (updateDomainList sha baseUrl)
      (fun err v => err = .ok → ListInstalled sha (urlOf baseUrl "/domains.idx.sha256") v) (d, []) := by
  simp only [updateDomainList, Prog.bind_eq, Prog.perform_bind, Prog.pure_eq]
  refine Sem.ends_traced_call fun s d₁ _ => ?_
  split
  · refine Sem.ends_traced_call fun active d₂ _ => Sem.ends_traced_bind fun len v₃ _ => ?_
    dsimp only
    split
    · exact Sem.ends_ret fun impossible => by cases impossible
    simp only [httpGetToBuffer, Prog.bind_eq, Prog.perform_bind, Prog.pure_eq, Prog.call_bind]
    refine Sem.ends_traced_call fun reply d₄ _ => ?_
    have refused {f : DomainFile} {Q : EspErr → Device × List Event → Prop} (next : ∀ v, Q .fail v) :
        (deviceSem false).traced.Ends (.call (.remove f) fun _ => .ret .fail) Q (d₄, []) :=
      Sem.ends_traced_call fun _ d₅ _ => Sem.ends_ret (next _)
    cases reply with
    | noClient => exact refused fun _ impossible => by cases impossible
    | openFailed => exact refused fun _ impossible => by cases impossible
    | response status chunks =>
      by_cases found : status = 200
      · subst found
        simp only [if_true, Prog.ret_bind]
        split
        · exact refused fun _ impossible => by cases impossible
        · refine (checkDomainList_installs sha _ _ d₄).mono fun err v installs ok => ?_
          obtain ⟨f, content, read, digest, stored, loaded⟩ := installs ok
          refine ⟨chunks, f, content, by simp, by simp [read], ?_, stored, fun unhindered => loaded ?_⟩
          · rw [digest, readBody_eq, List.take_take]
            rfl
          · simp only [List.any_cons, List.any_append, Bool.or_eq_false_iff] at unhindered
            exact unhindered.2.2.2.2
      · simp only [if_neg found, Prog.ret_bind]
        exact refused fun _ impossible => by cases impossible
  · exact Sem.ends_ret fun impossible => by cases impossible

/-! ## Both -/

/-- **A run of the updater that succeeds** installs the image and the list it fetched. -/
theorem blocklistUpdaterCheckAndApply_installs (sha : Sha256) (seedLen : BitVec 32) (baseUrl : List Byte) (d : Device) :
    (deviceSem false).traced.Ends (blocklistUpdaterCheckAndApply sha seedLen baseUrl) (fun err v => err = .ok →
      BloomInstalled (urlOf baseUrl "/bloom.bin") v ∧ ListInstalled sha (urlOf baseUrl "/domains.idx.sha256") v) (d, []) := by
  simp only [blocklistUpdaterCheckAndApply, Prog.bind_eq, Prog.pure_eq]
  refine Sem.ends_traced_bind ((updateBloom_installs seedLen baseUrl d).mono fun bloomErr v₁ bloom => ?_)
  have keeps : (deviceSem false).Ends (updateDomainList sha baseUrl) (fun _ d' => SameBloom v₁.1 d') v₁.1 :=
    ends_sameBloom (updateDomainList_keepsBloom sha baseUrl) v₁.1
  refine Sem.ends_traced_bind (((keeps.traced []).and (updateDomainList_installs sha baseUrl v₁.1)).mono ?_)
  rintro listErr v₂ ⟨same, list⟩
  split
  · rename_i both
    refine Sem.ends_ret fun _ => ⟨?_, ?_⟩
    · obtain ⟨chunks, cap, fetched, checked, ⟨rest, stored⟩, serving⟩ := bloom both.1
      refine ⟨chunks, cap, by simp [fetched], checked, ⟨rest, ?_⟩, (same.spares _).serving serving⟩
      rw [(same.spares _).activePartition, same.flash, stored]
    · obtain ⟨chunks, f, content, fetched, read, digest, stored, loaded⟩ := list both.2
      refine ⟨chunks, f, content, by simp [fetched], by simp [read], digest, stored, fun unhindered => loaded ?_⟩
      simp only [List.any_append, Bool.or_eq_false_iff] at unhindered
      exact unhindered.2.1
  · exact Sem.ends_ret fun impossible => by cases impossible

end

end EspAdblocker.Storage
