import EspAdblocker.Lib.Tasks
import EspAdblocker.Storage.DomainList

/-!
# The stores a lookup reads

The bloom filter, the allowlist and the exact list are reloaded by one function
each, in whatever task calls it. Each store has statics of its own, the list
stores also blocks of the heap, which no other store touches (`Undisturbed`).
What a reload does to its own part is followed operation by operation
(`keeps_free`, `keeps_malloc`, …), whatever the others do to theirs.
-/

namespace EspAdblocker.Storage

open EspAdblocker.Lib EspAdblocker.Bloom Function

/-! ## Stores -/

/-- The stores that hold the lines of a text. -/
inductive ListStore where
  | allowlist
  | domains
  deriving DecidableEq, Repr

/-- What a lookup reads. -/
inductive Store where
  | bloom
  | list (l : ListStore)
  deriving DecidableEq, Repr

/-- The statics of a store of lines: the text, the array of pointers to its lines, and their number. -/
structure ListStatics where
  buf : Option Nat
  entries : Option Nat
  count : Nat
  deriving DecidableEq, Repr

/-- A list store's part of the statics. -/
def Statics.list (s : Statics) : ListStore → ListStatics
  | .allowlist => ⟨s.allowlistBuf, s.allowlistEntries, s.allowlistCount⟩
  | .domains => ⟨s.domainBuf, s.domainLines, s.domainCount⟩

/-- The function that reloads a store. -/
def reload (seedLen : BitVec 32) : Store → DeviceM Unit
  | .bloom => dnsProxyReloadBloomFilter seedLen
  | .list .allowlist => dnsProxyReloadAllowlist
  | .list .domains => do
    let _ ← sdStorageLoadDomainList
    return ()

/-- What a list store refers to: nothing, or a text and pointers to lines of it. -/
inductive Loaded : ListStatics → List (Nat × Block) → Prop where
  | nothing : Loaded ⟨none, none, 0⟩ []
  | lines {buf array : Nat} {contents : List Byte} {starts : List Nat} {old : List (Option CharPtr)} :
      (∀ start ∈ starts, start < contents.length) →
      Loaded ⟨some buf, some array, starts.length⟩
        [(buf, .chars contents), (array, .ptrs ((starts.map fun start => (buf, start)).map some ++ old))]

/-- The region is the seed, or still mapped. -/
def RegionLive (maps : Nat → Option Half) : Region → Prop
  | .seed => True
  | .mapped handle => maps handle ≠ none

/-- A filter that is ready refers to live storage, its header and its bits to that of one image. -/
def BloomSound (b : BloomStatics) (maps : Nat → Option Half) : Prop :=
  b.ready = true → ∃ r, b.header = some r ∧ b.bits = some r ∧ RegionLive maps r

/-- What the guard of a store guards is there: all that a lookup follows is live. -/
def Sound (i : Store) (d : Device) : Prop :=
  match i with
  | .bloom => BloomSound d.statics.bloom d.maps
  | .list l => 0 < (d.statics.list l).count →
    ∃ blocks, Loaded (d.statics.list l) blocks ∧ ∀ e ∈ blocks, d.heap e.1 = some e.2

/-! ## What the stores leave each other -/

/-- Which store allocated a block last. -/
abbrev Owners := Nat → Option ListStore

/-- The owners after an operation of a reload. -/
def ownersAfter : Store → Owners → (op : Op) → Res op → Owners
  | .list l, owners, .mallocChars _, some block => update owners block (some l)
  | .list l, owners, .mallocPtrs _, some block => update owners block (some l)
  | _, owners, _, _ => owners

/-- The statics and the live blocks of a list store are as they were. -/
structure ListUndisturbed (l : ListStore) (w v : Device × Owners) : Prop where
  statics : v.1.statics.list l = w.1.statics.list l
  blocks : ∀ b, w.2 b = some l → w.1.heap b ≠ none → v.2 b = some l ∧ v.1.heap b = w.1.heap b

/-- The statics, the mappings, the partition table and the seed are as they were. -/
structure BloomUndisturbed (w v : Device × Owners) : Prop where
  statics : v.1.statics.bloom = w.1.statics.bloom
  maps : v.1.maps = w.1.maps
  partSize : v.1.partSize = w.1.partSize
  seed : v.1.seed = w.1.seed

/-- A store's part of the device is as it was. -/
def Undisturbed : Store → Device × Owners → Device × Owners → Prop
  | .bloom => BloomUndisturbed
  | .list l => ListUndisturbed l

theorem Undisturbed.refl (i : Store) (w : Device × Owners) : Undisturbed i w w := by
  cases i with
  | bloom => exact ⟨rfl, rfl, rfl, rfl⟩
  | list l => exact ⟨rfl, fun b owned _ => ⟨owned, rfl⟩⟩

theorem Undisturbed.trans (i : Store) (u v w : Device × Owners) (first : Undisturbed i u v) (second : Undisturbed i v w) :
    Undisturbed i u w := by
  cases i with
  | bloom =>
    exact ⟨second.statics.trans first.statics, second.maps.trans first.maps, second.partSize.trans first.partSize,
      second.seed.trans first.seed⟩
  | list l =>
    refine ⟨second.statics.trans first.statics, fun b owned live => ?_⟩
    obtain ⟨owned', same⟩ := first.blocks b owned live
    obtain ⟨owned'', same'⟩ := second.blocks b owned' (same ▸ live)
    exact ⟨owned'', same'.trans same⟩

/-- The operation changes nothing. -/
def Reads : Op → Prop
  | .getBloomSlot | .getListSlot | .getAllowlist | .findPartition _ | .readRegion _ => True
  | .fopenRead _ | .fileSize _ | .fread _ _ | .readStatics => True
  | _ => False

/-- The operation is within a store's part: blocks it owns, statics of its own, mappings for the filter. -/
def Local (i : Store) (owners : Owners) : Op → Prop
  | .free b | .storeChars b _ | .storePtrs b _ => ∃ l, i = .list l ∧ owners b = some l
  | .mallocChars _ | .mallocPtrs _ => ∃ l, i = .list l
  | .assign change => ∀ s, (i ≠ .bloom → (change s).bloom = s.bloom) ∧ ∀ l, i ≠ .list l → (change s).list l = s.list l
  | .mmap _ | .munmap _ => i = .bloom
  | op => Reads op

section

variable {short : Bool}

theorem Reads.step {d d' : Device} {op : Op} {r : Res op} (reads : Reads op) (step : (deviceSem short).step d op r d') :
    d' = d := by
  cases op <;> first | exact step.2 | exact reads.elim

theorem ownersAfter_reads {i : Store} {owners : Owners} {op : Op} {r : Res op} (reads : Reads op) :
    ownersAfter i owners op r = owners := by
  cases i <;> cases op <;> first | rfl | exact reads.elim

/-- A list store changes a block of its own, so none of another store. -/
theorem undisturbed_withBlock {j : Store} {l : ListStore} {d : Device} {owners : Owners} {block : Nat}
    {content : Option Block} (owned : owners block = some l) (differ : j ≠ .list l) :
    Undisturbed j (d, owners) (d.withBlock block content, owners) := by
  cases j with
  | bloom => exact ⟨rfl, rfl, rfl, rfl⟩
  | list l' =>
    refine ⟨rfl, fun b owned' _ => ⟨owned', ?_⟩⟩
    have elsewhere : b ≠ block := by
      rintro rfl
      apply differ
      rw [Option.some.inj (owned.symm.trans owned')]
    exact update_of_ne elsewhere _ _

/-- A block that a list store allocates was free, so it was of no other store. -/
theorem undisturbed_malloc {j : Store} {l : ListStore} {d : Device} {owners : Owners} {block : Nat} {content : Block}
    (fresh : d.heap block = none) :
    Undisturbed j (d, owners) (d.withBlock block (some content), update owners block (some l)) := by
  cases j with
  | bloom => exact ⟨rfl, rfl, rfl, rfl⟩
  | list l' =>
    refine ⟨rfl, fun b owned live => ?_⟩
    have elsewhere : b ≠ block := by
      rintro rfl
      exact live fresh
    exact ⟨(update_of_ne elsewhere _ _).trans owned, update_of_ne elsewhere _ _⟩

/-- **What a store does within its part, the other stores tolerate.** -/
theorem Local.tolerated {i j : Store} {w : Device × Owners} {op : Op} {r : Res op} {d : Device} (here : Local i w.2 op)
    (step : (deviceSem short).step w.1 op r d) (differ : j ≠ i) : Undisturbed j w (d, ownersAfter i w.2 op r) := by
  obtain ⟨c, owners⟩ := w
  change Device.step short c op r d at step
  cases op with
  | getBloomSlot | getListSlot | getAllowlist | findPartition | readRegion | fopenRead | fileSize | fread | readStatics =>
    obtain ⟨-, rfl⟩ := step
    cases i <;> exact .refl j _
  | mmap =>
    obtain rfl : i = .bloom := here
    cases j with
    | bloom => exact absurd rfl differ
    | list l =>
      cases r with
      | none => obtain rfl := step; exact .refl _ _
      | some => obtain ⟨-, rfl⟩ := step; exact ⟨rfl, fun b owned _ => ⟨owned, rfl⟩⟩
  | munmap =>
    obtain rfl : i = .bloom := here
    cases j with
    | bloom => exact absurd rfl differ
    | list l => obtain rfl := step; exact ⟨rfl, fun b owned _ => ⟨owned, rfl⟩⟩
  | mallocChars =>
    obtain ⟨l, rfl⟩ := here
    cases r with
    | none => obtain rfl := step; exact .refl _ _
    | some =>
      obtain ⟨fresh, junk, -, rfl⟩ := step
      exact undisturbed_malloc fresh
  | mallocPtrs =>
    obtain ⟨l, rfl⟩ := here
    cases r with
    | none => obtain rfl := step; exact .refl _ _
    | some =>
      obtain ⟨fresh, rfl⟩ := step
      exact undisturbed_malloc fresh
  | free =>
    obtain ⟨l, rfl, owned⟩ := here
    obtain rfl := step
    exact undisturbed_withBlock owned differ
  | storeChars | storePtrs =>
    obtain ⟨l, rfl, owned⟩ := here
    obtain ⟨-, -, -, rfl⟩ := step
    exact undisturbed_withBlock owned differ
  | assign change =>
    obtain rfl := step
    obtain ⟨bloom, list⟩ := here c.statics
    cases j with
    | bloom => exact ⟨bloom differ.symm, rfl, rfl, rfl⟩
    | list l => exact ⟨list l differ.symm, fun b owned _ => ⟨by cases i <;> exact owned, rfl⟩⟩
  | setBloomSlot | setListSlot | eraseRange | writePartition | httpGet | fopenWrite | fwrite | fcloseWrite | remove |
      readAll | abort => exact here.elim

end

theorem Local.reads {i : Store} {owners : Owners} {op : Op} (here : Reads op) : Local i owners op := by
  cases op <;> first | exact trivial | exact here.elim

/-! ## A list store's own part -/

section

variable {short : Bool} {α β : Type}

/-- The statics of a list store, and blocks that it owns with what they hold. -/
structure Holding (l : ListStore) (s : ListStatics) (blocks : List (Nat × Block)) (w : Device × Owners) : Prop where
  statics : w.1.statics.list l = s
  owned : ∀ e ∈ blocks, w.2 e.1 = some l ∧ w.1.heap e.1 = some e.2
  distinct : (blocks.map Prod.fst).Nodup

variable {l : ListStore} {s : ListStatics} {blocks : List (Nat × Block)} {w v : Device × Owners}

theorem Holding.undisturbed (holding : Holding l s blocks w) (moved : ListUndisturbed l w v) : Holding l s blocks v where
  statics := moved.statics.trans holding.statics
  owned e member := by
    obtain ⟨owned, here⟩ := holding.owned e member
    have live : w.1.heap e.1 ≠ none := by
      rw [here]
      exact Option.some_ne_none _
    obtain ⟨owned', same⟩ := moved.blocks e.1 owned live
    exact ⟨owned', same.trans here⟩
  distinct := holding.distinct

theorem Holding.swap {e e' : Nat × Block} (holding : Holding l s (e :: e' :: blocks) w) :
    Holding l s (e' :: e :: blocks) w where
  statics := holding.statics
  owned x member := holding.owned x ((List.Perm.swap e e' blocks).mem_iff.mp member)
  distinct := ((List.Perm.swap e e' blocks).map Prod.fst).nodup_iff.mpr holding.distinct

theorem Holding.sound (holding : Holding l s blocks w) (idle : s.count = 0) : Sound (.list l) w.1 := by
  intro counted
  rw [holding.statics, idle] at counted
  exact absurd counted (Nat.lt_irrefl 0)

/-- Between two programs a list store holds what it refers to. -/
def ListRest (l : ListStore) (w : Device × Owners) : Prop :=
  ∃ s blocks, Holding l s blocks w ∧ Loaded s blocks

theorem ListRest.undisturbed (rest : ListRest l w) (moved : ListUndisturbed l w v) : ListRest l v := by
  obtain ⟨s, blocks, holding, loaded⟩ := rest
  exact ⟨s, blocks, holding.undisturbed moved, loaded⟩

theorem ListRest.sound (rest : ListRest l w) : Sound (.list l) w.1 := by
  obtain ⟨s, blocks, holding, loaded⟩ := rest
  intro counted
  rw [holding.statics]
  exact ⟨blocks, loaded, fun e member => (holding.owned e member).2⟩

variable (short l) in
/-- A list store's program keeps what its guard guards, whatever the other stores do. -/
abbrev KeepsList (p : DeviceM α) (Q : α → Device × Owners → Prop) (w : Device × Owners) : Prop :=
  Tasks.Keeps (deviceSem short) ownersAfter Undisturbed (Sound (.list l)) (.list l) p Q w

/-- The end of a program. -/
theorem keepsList_ret {a : α} {Q : α → Device × Owners → Prop} (holding : Holding l s blocks w) (idle : s.count = 0)
    (last : ∀ v, Holding l s blocks v → Q a v) : KeepsList short l (.ret a) Q w :=
  fun v moved => ⟨(holding.undisturbed moved).sound idle, last v (holding.undisturbed moved)⟩

/-- One operation within the store's part. -/
theorem keepsList_call {op : Op} {k : Res op → DeviceM α} {Q : α → Device × Owners → Prop}
    (holding : Holding l s blocks w) (idle : s.count = 0)
    (here : ∀ v, Holding l s blocks v → Local (.list l) v.2 op)
    (next : ∀ v r d, Holding l s blocks v → (deviceSem short).step v.1 op r d →
      KeepsList short l (k r) Q (d, ownersAfter (.list l) v.2 op r)) : KeepsList short l (.call op k) Q w := by
  intro v moved
  have still := holding.undisturbed moved
  refine ⟨still.sound idle, fun r d step => ⟨fun j differ => ?_, next v r d still step⟩⟩
  exact (here v still).tolerated step differ

/-- An operation that changes nothing. -/
theorem keepsList_reads {op : Op} {k : Res op → DeviceM α} {Q : α → Device × Owners → Prop} (quiet : Reads op)
    (holding : Holding l s blocks w) (idle : s.count = 0)
    (next : ∀ r v, Holding l s blocks v → KeepsList short l (k r) Q v) : KeepsList short l (.call op k) Q w := by
  refine keepsList_call holding idle (fun v _ => .reads quiet) fun v r d still step => next r _ ?_
  rw [quiet.step step, ownersAfter_reads quiet]
  exact still

/-- Reading the statics. -/
theorem keepsList_statics {k : Statics → DeviceM α} {Q : α → Device × Owners → Prop}
    (holding : Holding l s blocks w) (idle : s.count = 0)
    (next : ∀ r v, r.list l = s → Holding l s blocks v → KeepsList short l (k r) Q v) :
    KeepsList short l (.call .readStatics k) Q w := by
  refine keepsList_call holding idle (fun v _ => trivial) fun v r d still step => ?_
  obtain ⟨rfl, rfl⟩ := step
  exact next _ _ still.statics still

/-- The assignment changes the statics of one list store. -/
structure Changes (l : ListStore) (change : Statics → Statics) (f : ListStatics → ListStatics) : Prop where
  own : ∀ s, (change s).list l = f (s.list l)
  others : ∀ s l', l' ≠ l → (change s).list l' = s.list l'
  bloom : ∀ s, (change s).bloom = s.bloom

theorem keepsList_assign {change : Statics → Statics} {f : ListStatics → ListStatics} {k : Unit → DeviceM α}
    {Q : α → Device × Owners → Prop} (changes : Changes l change f) (holding : Holding l s blocks w) (idle : s.count = 0)
    (next : ∀ v, Holding l (f s) blocks v → KeepsList short l (k ()) Q v) :
    KeepsList short l (.call (.assign change) k) Q w := by
  refine keepsList_call holding idle (fun v _ => ?_) fun v r d still step => ?_
  · intro t
    exact ⟨fun _ => changes.bloom t, fun l' differ => changes.others t l' fun same => differ (same ▸ rfl)⟩
  · obtain rfl : d = _ := step
    refine next _ ⟨?_, still.owned, still.distinct⟩
    rw [← still.statics]
    exact changes.own v.1.statics

/-- Freeing an owned block. -/
theorem keepsList_free {block : Nat} {content : Block} {k : Unit → DeviceM α} {Q : α → Device × Owners → Prop}
    (holding : Holding l s ((block, content) :: blocks) w) (idle : s.count = 0)
    (next : ∀ v, Holding l s blocks v → KeepsList short l (k ()) Q v) :
    KeepsList short l (.call (.free block) k) Q w := by
  refine keepsList_call holding idle (fun v still => ⟨l, rfl, (still.owned _ (List.mem_cons_self ..)).1⟩)
    fun v r d still step => ?_
  obtain rfl : d = _ := step
  obtain ⟨fresh, distinct⟩ := List.nodup_cons.mp still.distinct
  refine next _ ⟨still.statics, fun e member => ?_, distinct⟩
  obtain ⟨owned, here⟩ := still.owned e (List.mem_cons_of_mem _ member)
  have differ : e.1 ≠ block := by
    rintro rfl
    exact fresh (List.mem_map.mpr ⟨e, member, rfl⟩)
  exact ⟨owned, (update_of_ne differ _ _).trans here⟩

/-- A block that was free, once it is allocated. -/
theorem Holding.push {block : Nat} {content : Block} (holding : Holding l s blocks w) (fresh : w.1.heap block = none) :
    Holding l s ((block, content) :: blocks) (w.1.withBlock block (some content), update w.2 block (some l)) := by
  have apart {e : Nat × Block} (member : e ∈ blocks) : e.1 ≠ block := by
    rintro rfl
    rw [(holding.owned e member).2] at fresh
    cases fresh
  refine ⟨holding.statics, fun e member => ?_, List.nodup_cons.mpr ⟨fun again => ?_, holding.distinct⟩⟩
  · rcases List.mem_cons.mp member with rfl | old
    · exact ⟨update_self .., update_self ..⟩
    · obtain ⟨owned, here⟩ := holding.owned e old
      exact ⟨(update_of_ne (apart old) _ _).trans owned, (update_of_ne (apart old) _ _).trans here⟩
  · obtain ⟨e, old, same⟩ := List.mem_map.mp again
    exact apart old same

theorem keepsList_mallocChars {size : Nat} {k : Option Nat → DeviceM α} {Q : α → Device × Owners → Prop}
    (holding : Holding l s blocks w) (idle : s.count = 0)
    (failed : ∀ v, Holding l s blocks v → KeepsList short l (k none) Q v)
    (next : ∀ block junk v, Holding l s ((block, .chars junk) :: blocks) v → KeepsList short l (k (some block)) Q v) :
    KeepsList short l (.call (.mallocChars size) k) Q w := by
  refine keepsList_call holding idle (fun v _ => ⟨l, rfl⟩) fun v r d still step => ?_
  cases r with
  | none =>
    obtain rfl : d = v.1 := step
    exact failed _ still
  | some block =>
    obtain ⟨fresh, junk, -, rfl⟩ := step
    exact next block junk _ (still.push fresh)

theorem keepsList_mallocPtrs {size : Nat} {k : Option Nat → DeviceM α} {Q : α → Device × Owners → Prop}
    (holding : Holding l s blocks w) (idle : s.count = 0)
    (failed : ∀ v, Holding l s blocks v → KeepsList short l (k none) Q v)
    (next : ∀ block v, Holding l s ((block, .ptrs (List.replicate size none)) :: blocks) v →
      KeepsList short l (k (some block)) Q v) :
    KeepsList short l (.call (.mallocPtrs size) k) Q w := by
  refine keepsList_call holding idle (fun v _ => ⟨l, rfl⟩) fun v r d still step => ?_
  cases r with
  | none =>
    obtain rfl : d = v.1 := step
    exact failed _ still
  | some block =>
    obtain ⟨fresh, rfl⟩ := step
    exact next block _ (still.push fresh)

/-- An owned block, once it holds something else. -/
theorem Holding.replace {block : Nat} {content content' : Block} {d : Device}
    (holding : Holding l s ((block, content) :: blocks) w)
    (heap : d.heap = update w.1.heap block (some content')) (statics : d.statics = w.1.statics) :
    Holding l s ((block, content') :: blocks) (d, w.2) := by
  obtain ⟨fresh, -⟩ := List.nodup_cons.mp holding.distinct
  refine ⟨(congrArg (Statics.list · l) statics).trans holding.statics, fun e member => ?_, holding.distinct⟩
  rcases List.mem_cons.mp member with rfl | old
  · exact ⟨(holding.owned _ (List.mem_cons_self ..)).1, by rw [heap, update_self]⟩
  · obtain ⟨owned, here⟩ := holding.owned e (List.mem_cons_of_mem _ old)
    have differ : e.1 ≠ block := by
      rintro rfl
      exact fresh (List.mem_map.mpr ⟨e, old, rfl⟩)
    exact ⟨owned, by rw [heap, update_of_ne differ, here]⟩

theorem keepsList_storeChars {block : Nat} {bytes old : List Byte} {k : Unit → DeviceM α}
    {Q : α → Device × Owners → Prop} (holding : Holding l s ((block, .chars old) :: blocks) w) (idle : s.count = 0)
    (next : ∀ v, Holding l s ((block, .chars (bytes ++ old.drop bytes.length)) :: blocks) v →
      KeepsList short l (k ()) Q v) :
    KeepsList short l (.call (.storeChars block bytes) k) Q w := by
  refine keepsList_call holding idle (fun v still => ⟨l, rfl, (still.owned _ (List.mem_cons_self ..)).1⟩)
    fun v r d still step => ?_
  obtain ⟨heap, statics⟩ := storeChars_heap (still.owned _ (List.mem_cons_self ..)).2 step
  exact next _ (still.replace heap statics)

theorem keepsList_storePtrs {block : Nat} {entries : List CharPtr} {old : List (Option CharPtr)} {k : Unit → DeviceM α}
    {Q : α → Device × Owners → Prop} (holding : Holding l s ((block, .ptrs old) :: blocks) w) (idle : s.count = 0)
    (next : ∀ v, Holding l s ((block, .ptrs (entries.map some ++ old.drop entries.length)) :: blocks) v →
      KeepsList short l (k ()) Q v) :
    KeepsList short l (.call (.storePtrs block entries) k) Q w := by
  refine keepsList_call holding idle (fun v still => ⟨l, rfl, (still.owned _ (List.mem_cons_self ..)).1⟩)
    fun v r d still step => ?_
  obtain ⟨heap, statics⟩ := storePtrs_heap (still.owned _ (List.mem_cons_self ..)).2 step
  exact next _ (still.replace heap statics)

end

end EspAdblocker.Storage
