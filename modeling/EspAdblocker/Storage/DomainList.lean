import EspAdblocker.Lib.Lines
import EspAdblocker.Lib.Search
import EspAdblocker.Storage.Effects

/-!
# The exact list

`sd_storage_confirm` over the loaded list, and what an installation that succeeds
leaves there. The splitting loop turns each line of the text into a C string of
the same buffer (`splitLines_eq`), so the loaded strings are the lines that are not
empty (`listStrings_eq`), and a sorted list is searched as the list of its names
(`sdStorageConfirm_of_sorted`).
-/

namespace EspAdblocker.Storage

open EspAdblocker.Lib EspAdblocker.Bloom

/-! ## Confirming a name -/

/-- `sd_storage_confirm_t`. -/
inductive Confirm where
  | unavailable
  | blocked
  | notBlocked
  deriving DecidableEq, Repr

namespace Device

/-- The C string at a pointer of the heap. An entry that was never written is no pointer. -/
def stringAt (d : Device) : Option CharPtr → Except Fault (List Byte)
  | none => .error .outOfBounds
  | some (block, offset) =>
    match d.heap block with
    | some (.chars bytes) => if offset < bytes.length then .ok (cstr (bytes.drop offset)) else .error .outOfBounds
    | _ => .error .deadStorage

/-- The C strings that the first `count` entries of a pointer array point to. -/
def strings (d : Device) (array count : Nat) : Except Fault (List (List Byte)) :=
  match d.heap array with
  | some (.ptrs entries) => if count ≤ entries.length then (entries.take count).mapM d.stringAt else .error .outOfBounds
  | _ => .error .deadStorage

/-- `sd_storage_confirm`. The search may follow any of the pointers, so all of them count. -/
def sdStorageConfirm (bs : Bsearch) (d : Device) (domain : List Byte) : Except Fault Confirm :=
  match d.statics.domainLines with
  | none => .ok .unavailable
  | some lines =>
    if d.statics.domainCount = 0 then .ok .unavailable
    else do
      let strings ← d.strings lines d.statics.domainCount
      match bs.run (cstr domain) strings with
      | some _ => return .blocked
      | none => return .notBlocked

end Device

/-! ## The splitting loop -/

section Splitting

variable {ends : Byte → Bool}

/-- A turn at a byte that ends no line does nothing. -/
theorem splitStep_inside {st : Split} {i : Nat} (inside : ends (st.buf.getD i 0#8) = false) :
    splitStep ends st i = st := by
  rw [splitStep, inside]
  rfl

/-- Turns over bytes that end no line do nothing. -/
theorem foldl_splitStep_inside {line : List Byte} (inside : ∀ b ∈ line, ends b = false) (pre post : List Byte)
    (lineStart : Nat) (starts : List Nat) :
    (List.range' pre.length line.length).foldl (splitStep ends) ⟨pre ++ line ++ post, lineStart, starts⟩ =
      ⟨pre ++ line ++ post, lineStart, starts⟩ := by
  have still : ∀ i ∈ List.range' pre.length line.length,
      splitStep ends ⟨pre ++ line ++ post, lineStart, starts⟩ i = ⟨pre ++ line ++ post, lineStart, starts⟩ := by
    intro i member
    rw [List.mem_range'_1] at member
    have here : i - pre.length < line.length := by omega
    apply splitStep_inside
    simp only [List.getD_eq_getElem?_getD, List.append_assoc]
    rw [List.getElem?_append_right member.1, List.getElem?_append_left here, List.getElem?_eq_getElem here, Option.getD_some]
    exact inside _ (List.getElem_mem here)
  generalize List.range' pre.length line.length = is at still
  induction is with
  | nil => rfl
  | cons i is ih =>
    rw [List.foldl_cons, still i List.mem_cons_self]
    exact ih fun j member => still j (List.mem_cons_of_mem i member)

/-- Where the lines that are not empty start, the first line starting at `offset`. -/
def lineStarts : Nat → List (List Byte × Byte) → List Nat
  | _, [] => []
  | offset, (line, _) :: lines =>
    (if line = [] then [] else [offset]) ++ lineStarts (offset + line.length + 1) lines

/-- Lines with the bytes that end them. -/
def closedText (lines : List (List Byte × Byte)) : List Byte :=
  lines.flatMap fun line => line.1 ++ [line.2]

/-- Lines with their terminators. -/
def splitText (lines : List (List Byte × Byte)) : List Byte :=
  lines.flatMap fun line => line.1 ++ [0#8]

/-- Lines of text: NUL-free, without a byte that ends a line, each closed by one. -/
structure ClosedLines (ends : Byte → Bool) (lines : List (List Byte × Byte)) : Prop where
  free : ∀ line ∈ lines, NulFree line.1
  inside : ∀ line ∈ lines, ∀ b ∈ line.1, ends b = false
  closed : ∀ line ∈ lines, ends line.2 = true

theorem ClosedLines.tail {line : List Byte × Byte} {lines : List (List Byte × Byte)}
    (h : ClosedLines ends (line :: lines)) : ClosedLines ends lines where
  free other member := h.free other (List.mem_cons_of_mem line member)
  inside other member := h.inside other (List.mem_cons_of_mem line member)
  closed other member := h.closed other (List.mem_cons_of_mem line member)

theorem length_splitText (lines : List (List Byte × Byte)) : (splitText lines).length = (closedText lines).length := by
  induction lines with
  | nil => rfl
  | cons line lines ih =>
    rw [splitText, closedText, List.flatMap_cons, List.flatMap_cons, ← splitText, ← closedText]
    simp [ih]

/-- The turn at the end of a line. -/
theorem splitStep_close {line : List Byte} {close : Byte} (free : NulFree line) (closes : ends close = true)
    (pre post : List Byte) (starts : List Nat) :
    splitStep ends ⟨pre ++ (line ++ [close]) ++ post, pre.length, starts⟩ (pre.length + line.length) =
      ⟨pre ++ (line ++ [0#8]) ++ post, pre.length + line.length + 1,
        starts ++ if line = [] then [] else [pre.length]⟩ := by
  have byte : (pre ++ (line ++ [close]) ++ post).getD (pre.length + line.length) 0#8 = close := by
    simp [List.getD_eq_getElem?_getD]
  have stored : (pre ++ (line ++ [close]) ++ post).set (pre.length + line.length) 0#8 =
      pre ++ (line ++ [0#8]) ++ post := by
    rw [List.append_assoc, List.append_assoc, List.append_assoc, List.append_assoc, List.set_append_right _ _ (by omega),
      Nat.add_sub_cancel_left, List.set_append_right _ _ (Nat.le_refl _), Nat.sub_self]
    rfl
  rw [splitStep]
  simp only [byte, closes, if_true, stored, Split.mk.injEq, true_and]
  cases line with
  | nil => simp [List.getD_eq_getElem?_getD]
  | cons b line =>
    have nonzero := free.head
    simp [List.getD_eq_getElem?_getD, nonzero]

/-- The turns over lines of text terminate each and collect the starts. -/
theorem foldl_splitStep_lines {lines : List (List Byte × Byte)} (ok : ClosedLines ends lines) (pre post : List Byte)
    (starts : List Nat) :
    (List.range' pre.length (closedText lines).length).foldl (splitStep ends)
        ⟨pre ++ closedText lines ++ post, pre.length, starts⟩ =
      ⟨pre ++ splitText lines ++ post, pre.length + (closedText lines).length,
        starts ++ lineStarts pre.length lines⟩ := by
  induction lines generalizing pre starts with
  | nil => simp [closedText, splitText, lineStarts]
  | cons line lines ih =>
    obtain ⟨line, close⟩ := line
    have free := ok.free _ List.mem_cons_self
    have inside := ok.inside _ List.mem_cons_self
    have closes := ok.closed _ List.mem_cons_self
    have text : closedText ((line, close) :: lines) = line ++ ([close] ++ closedText lines) := by
      simp [closedText]
    have count : (closedText ((line, close) :: lines)).length = line.length + (1 + (closedText lines).length) := by
      simp [text]; omega
    have body := foldl_splitStep_inside inside pre ([close] ++ closedText lines ++ post) pre.length starts
    have close' := splitStep_close free closes pre (closedText lines ++ post) starts
    have rest := ih ok.tail (pre ++ (line ++ [0#8])) (starts ++ if line = [] then [] else [pre.length])
    rw [count, ← List.range'_append_1, List.foldl_append, ← List.range'_append_1, List.foldl_append, text]
    simp only [List.append_assoc] at body close' rest ⊢
    rw [body, List.range'_one, List.foldl_cons, List.foldl_nil]
    simp only [List.cons_append, List.nil_append] at close' rest ⊢
    rw [close']
    simp only [List.length_append, List.length_cons, List.length_nil, Nat.zero_add, Nat.add_assoc] at rest ⊢
    rw [rest]
    simp [splitText, lineStarts, Nat.add_comm, Nat.add_left_comm]

/-- The strings at the collected starts are the lines that are not empty. -/
theorem map_cstr_lineStarts {lines : List (List Byte × Byte)} (ok : ClosedLines ends lines) (pre post : List Byte) :
    (lineStarts pre.length lines).map (fun start => cstr ((pre ++ splitText lines ++ post).drop start)) =
      (lines.map Prod.fst).filter (· ≠ []) := by
  induction lines generalizing pre with
  | nil => rfl
  | cons line lines ih =>
    obtain ⟨line, close⟩ := line
    have free := ok.free _ List.mem_cons_self
    have rest := ih ok.tail (pre ++ (line ++ [0#8]))
    have text : pre ++ splitText ((line, close) :: lines) ++ post =
        pre ++ (line ++ [0#8]) ++ splitText lines ++ post := by
      simp [splitText]
    have next : pre.length + line.length + 1 = (pre ++ (line ++ [0#8])).length := by simp; omega
    rw [lineStarts, List.map_append, text, next, rest, List.map_cons, List.filter_cons]
    by_cases empty : line = []
    · simp [empty]
    · have here : (pre ++ (line ++ [0#8]) ++ splitText lines ++ post).drop pre.length =
          line ++ 0#8 :: (splitText lines ++ post) := by
        simp only [List.append_assoc, List.drop_left]
        rfl
      rw [if_neg empty, List.map_singleton, here, cstr_append free]
      simp [empty]

/-- **Splitting in place**: over lines of text and a last piece that no byte
closes, the loop leaves the lines as C strings and collects those not empty. -/
theorem splitLines_eq {lines : List (List Byte × Byte)} (ok : ClosedLines ends lines) {tail : List Byte}
    (unclosed : ∀ b ∈ tail, ends b = false) (post : List Byte) :
    splitLines ends (closedText lines ++ tail ++ post) (closedText lines ++ tail).length =
      ⟨splitText lines ++ tail ++ post, (closedText lines).length, lineStarts 0 lines⟩ := by
  have body := foldl_splitStep_lines ok [] (tail ++ post) []
  have last := foldl_splitStep_inside unclosed (splitText lines) post (splitText lines).length (lineStarts 0 lines)
  rw [splitLines, List.range_eq_range', List.length_append, ← List.range'_append_1, List.foldl_append]
  simp only [List.nil_append, List.length_nil, Nat.zero_add, List.append_assoc] at body last ⊢
  rw [body, ← length_splitText, last]

/-- What the loop keeps over any bytes: the buffer's length, the bytes ahead, and starts behind. -/
structure SplitBehind (buf : List Byte) (i : Nat) (st : Split) : Prop where
  length : st.buf.length = buf.length
  ahead : ∀ j, i ≤ j → st.buf[j]? = buf[j]?
  lineStart : st.lineStart ≤ i
  starts : ∀ start ∈ st.starts, start < i

theorem splitLines_succ (ends : Byte → Bool) (buf : List Byte) (n : Nat) :
    splitLines ends buf (n + 1) = splitStep ends (splitLines ends buf n) n := by
  rw [splitLines, List.range_succ, List.foldl_append, ← splitLines, List.foldl_cons, List.foldl_nil]

theorem splitLines_behind (ends : Byte → Bool) (buf : List Byte) (n : Nat) :
    SplitBehind buf n (splitLines ends buf n) := by
  induction n with
  | zero => exact ⟨rfl, fun _ _ => rfl, Nat.le_refl _, by simp [splitLines]⟩
  | succ n ih =>
    rw [splitLines_succ, splitStep]
    split
    · refine ⟨by simp [ih.length], fun j past => ?_, Nat.le_refl _, fun start member => ?_⟩
      · rw [List.getElem?_set_ne (by omega)]
        exact ih.ahead j (by omega)
      · have := ih.lineStart
        simp only at member
        split at member
        · rcases List.mem_append.mp member with old | new
          · have := ih.starts start old; omega
          · rw [List.mem_singleton.mp new]; omega
        · have := ih.starts start member; omega
    · exact ⟨ih.length, fun j past => ih.ahead j (by omega), Nat.le_succ_of_le ih.lineStart,
        fun start member => Nat.lt_succ_of_lt (ih.starts start member)⟩

/-- The loop has stored no more starts than bytes it has passed that end a line. -/
theorem length_starts_le (ends : Byte → Bool) (buf : List Byte) {turns : Nat} (inside : turns ≤ buf.length) :
    (splitLines ends buf turns).starts.length ≤ (buf.take turns).countP ends := by
  induction turns with
  | zero => exact Nat.zero_le _
  | succ i ih =>
    have before := ih (Nat.le_of_succ_le inside)
    have here := (splitLines_behind ends buf i).ahead i (Nat.le_refl i)
    rw [splitLines_succ, splitStep, List.getD_eq_getElem?_getD, here, List.getElem?_eq_getElem inside, Option.getD_some,
      List.take_add_one, List.getElem?_eq_getElem inside, Option.toList_some, List.countP_append, List.countP_singleton]
    by_cases closes : ends buf[i]
    · simp only [closes, if_true]
      split
      · rw [List.length_append, List.length_singleton]
        omega
      · omega
    · simp only [closes, Bool.false_eq_true, if_false]
      exact before

end Splitting

/-! ## An installation that succeeds -/

/-- The split of a list that was read: the loop runs over the bytes, the terminator behind them. -/
def listSplit (read : List Byte) : Split := splitLines (· == 10#8) (read ++ [0#8]) read.length

/-- The strings the loop collects. -/
def listStrings (read : List Byte) : List (List Byte) :=
  (listSplit read).starts.map fun start => cstr ((listSplit read).buf.drop start)

/-- The statics point to the strings of a list that was read. -/
structure ListLoaded (read : List Byte) (d : Device) : Prop where
  count : d.statics.domainCount = (listSplit read).starts.length
  lines : ∃ lines, d.statics.domainLines = some lines ∧
    d.strings lines (listSplit read).starts.length = .ok (listStrings read)

/-- A collected string ends inside the split buffer, whatever memory follows it. -/
theorem cstr_listSplit {read : List Byte} {start : Nat} (member : start ∈ (listSplit read).starts) (rest : List Byte) :
    start < ((listSplit read).buf ++ rest).length ∧
      cstr (((listSplit read).buf ++ rest).drop start) = cstr ((listSplit read).buf.drop start) := by
  have behind := splitLines_behind (· == 10#8) (read ++ [0#8]) read.length
  have inside := behind.starts start member
  have len := behind.length
  rw [List.length_append, List.length_singleton] at len
  change (listSplit read).buf.length = _ at len
  refine ⟨by rw [List.length_append]; omega, ?_⟩
  rw [List.drop_append_of_le_length (by omega)]
  refine cstr_append_of_mem ?_ rest
  refine List.mem_iff_getElem?.mpr ⟨read.length - start, ?_⟩
  have terminator := behind.ahead read.length (Nat.le_refl _)
  rw [List.getElem?_drop, Nat.add_sub_cancel' (Nat.le_of_lt inside)]
  exact terminator.trans (by simp)

theorem mapM_ok {α β : Type} {f : α → Except Fault β} {g : α → β} {xs : List α} (h : ∀ x ∈ xs, f x = .ok (g x)) :
    xs.mapM f = .ok (xs.map g) := by
  induction xs with
  | nil => rfl
  | cons x xs ih =>
    rw [List.mapM_cons, h x List.mem_cons_self, ih fun y member => h y (List.mem_cons_of_mem x member)]
    rfl

section Loading

variable {short : Bool}

/-- Storing at the start of a live block. -/
theorem storeChars_heap {block : Nat} {bytes old : List Byte} {d d' : Device} {r : Unit}
    (live : d.heap block = some (.chars old)) (stored : (deviceSem short).step d (.storeChars block bytes) r d') :
    d'.heap = Function.update d.heap block (some (.chars (bytes ++ old.drop bytes.length))) ∧ d'.statics = d.statics := by
  obtain ⟨held, here, -, rfl⟩ := stored
  rw [live] at here
  cases here
  exact ⟨rfl, rfl⟩

theorem storePtrs_heap {block : Nat} {entries : List CharPtr} {old : List (Option CharPtr)} {d d' : Device} {r : Unit}
    (live : d.heap block = some (.ptrs old)) (stored : (deviceSem short).step d (.storePtrs block entries) r d') :
    d'.heap = Function.update d.heap block (some (.ptrs (entries.map some ++ old.drop entries.length))) ∧
      d'.statics = d.statics := by
  obtain ⟨held, here, -, rfl⟩ := stored
  rw [live] at here
  cases here
  exact ⟨rfl, rfl⟩

/-- A new block leaves the live ones alone. -/
theorem heap_withBlock_of_fresh {d : Device} {block other : Nat} {content : Option Block} {live : Block}
    (fresh : d.heap block = none) (here : d.heap other = some live) : (d.withBlock block content).heap other = some live := by
  have apart : other ≠ block := by
    rintro rfl
    rw [fresh] at here
    cases here
  exact (Function.update_of_ne apart ..).trans here

/-- A text and the pointers into it, stored in two live blocks. -/
theorem stores_heap {buf array : Nat} {bytes old : List Byte} {entries : List CharPtr} {slots : List (Option CharPtr)}
    {d d₁ d₂ : Device} {r r' : Unit} (stored : (deviceSem short).step d (.storeChars buf bytes) r d₁)
    (pointed : (deviceSem short).step d₁ (.storePtrs array entries) r' d₂) (chars : d.heap buf = some (.chars old))
    (ptrs : d.heap array = some (.ptrs slots)) :
    d₂.heap buf = some (.chars (bytes ++ old.drop bytes.length)) ∧
      d₂.heap array = some (.ptrs (entries.map some ++ slots.drop entries.length)) ∧ d₂.statics = d.statics := by
  have apart : buf ≠ array := by
    rintro rfl
    rw [chars] at ptrs
    cases ptrs
  obtain ⟨heap₁, statics₁⟩ := storeChars_heap chars stored
  have ptrs₁ : d₁.heap array = some (.ptrs slots) := by rw [heap₁, Function.update_of_ne apart.symm, ptrs]
  obtain ⟨heap₂, statics₂⟩ := storePtrs_heap ptrs₁ pointed
  refine ⟨?_, ?_, statics₂.trans statics₁⟩
  · rw [heap₂, Function.update_of_ne apart, heap₁, Function.update_self]
  · rw [heap₂, Function.update_self]

/-- Pointers into a live block are followed to the strings that start there. -/
theorem strings_of_starts {buf array : Nat} {contents : List Byte} {starts : List Nat} {old : List (Option CharPtr)}
    {d : Device} (chars : d.heap buf = some (.chars contents))
    (ptrs : d.heap array = some (.ptrs ((starts.map fun start => (buf, start)).map some ++ old)))
    (inside : ∀ start ∈ starts, start < contents.length) :
    d.strings array starts.length = .ok (starts.map fun start => cstr (contents.drop start)) := by
  have count : starts.length ≤ ((starts.map fun start => (buf, start)).map some ++ old).length := by
    simp
  have entries : ((starts.map fun start => (buf, start)).map some ++ old).take starts.length =
      starts.map fun start => some (buf, start) := by
    rw [List.map_map, List.take_left' (by simp)]
    rfl
  rw [Device.strings, ptrs]
  simp only [if_pos count, entries, List.mapM_map]
  refine mapM_ok fun start member => ?_
  simp only [Function.comp, Device.stringAt, chars, if_pos (inside start member)]

/-- The collected strings are read back through the two blocks of the heap. -/
theorem strings_eq {buf lines : Nat} {read rest : List Byte} {old : List (Option CharPtr)} {d : Device}
    (chars : d.heap buf = some (.chars ((listSplit read).buf ++ rest)))
    (ptrs : d.heap lines = some (.ptrs (((listSplit read).starts.map fun start => (buf, start)).map some ++ old))) :
    d.strings lines (listSplit read).starts.length = .ok (listStrings read) := by
  rw [strings_of_starts chars ptrs fun start member => (cstr_listSplit member rest).1, listStrings]
  exact congrArg Except.ok (List.map_congr_left fun start member => (cstr_listSplit member rest).2)

end Loading

/-! ## What a loaded list confirms -/

/-- The names of a list file: its newline-terminated lines that are not empty. -/
def fileNames (content : List Byte) : List (List Byte) := (terminated 10#8 content).filter (· ≠ [])

/-- **The strings of a file are its names**: the loop collects the lines that are
not empty, and leaves out what follows the last newline. -/
theorem listStrings_eq {content : List Byte} (free : ∀ line ∈ terminated 10#8 content, NulFree line) :
    listStrings content = fileNames content := by
  obtain ⟨rest, unclosed, text⟩ := exists_terminated 10#8 content
  have clean : ∀ line ∈ terminated 10#8 content, 10#8 ∉ line := fun _ => not_mem_of_mem_terminated
  rw [fileNames]
  generalize terminated 10#8 content = lines at *
  have ok : ClosedLines (· == 10#8) (lines.map fun line => (line, 10#8)) := by
    refine ⟨?_, ?_, ?_⟩
    · simpa using free
    · simp only [List.forall_mem_map, beq_eq_false_iff_ne]
      rintro line member b present rfl
      exact clean line member present
    · simp
  have closed : closedBy 10#8 lines = closedText (lines.map fun line => (line, 10#8)) := by
    rw [closedBy, closedText, List.flatMap_map]
  have none_closes : ∀ b ∈ rest, (b == 10#8) = false := by
    rintro b member
    rw [beq_eq_false_iff_ne]
    rintro rfl
    exact unclosed member
  have split := splitLines_eq ok none_closes [0#8]
  have starts := map_cstr_lineStarts ok [] (rest ++ [0#8])
  simp only [List.nil_append, List.length_nil, List.map_map] at starts
  rw [listStrings, listSplit, text, closed, split, List.append_assoc, starts]
  simp [Function.comp_def]

/-- **A sorted list confirms exactly its names.** -/
theorem sdStorageConfirm_of_sorted (bs : Bsearch) {d : Device} {read : List Byte} {names : List (List Byte)}
    (loaded : ListLoaded read d) (strings : listStrings read = names) (some_name : names ≠ [])
    (free : ∀ name ∈ names, NulFree name) (sorted : names.Pairwise fun x y => strcmp x y ≤ 0) (domain : List Byte) :
    d.sdStorageConfirm bs domain = .ok (if cstr domain ∈ names then .blocked else .notBlocked) := by
  obtain ⟨lines, published, shown⟩ := loaded.lines
  have count : (listSplit read).starts.length = names.length := by
    rw [← strings, listStrings, List.length_map]
  have nonzero : names.length ≠ 0 := by simpa using some_name
  have found := bs.found_iff (cstr domain) names (nulFree_cstr domain) free sorted
  rw [exists_strcmp_eq_zero_iff (nulFree_cstr domain) free] at found
  rw [strings, count] at shown
  rw [Device.sdStorageConfirm, published, loaded.count, count]
  simp only [if_neg nonzero, shown, bind, Except.bind]
  cases result : bs.run (cstr domain) names with
  | none =>
    have absent : cstr domain ∉ names := fun member => by simpa [result] using found.mpr member
    rw [if_neg absent]
    rfl
  | some _ =>
    have present : cstr domain ∈ names := found.mp (by rw [result]; rfl)
    rw [if_pos present]
    rfl

end EspAdblocker.Storage
