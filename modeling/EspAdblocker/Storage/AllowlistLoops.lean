import EspAdblocker.Storage.Allowlist
import EspAdblocker.Storage.Ideal

/-!
# The two passes over the allowlist

`dns_proxy_reload_allowlist` counts the lines of the text in one pass, allocates
that many pointers, and fills them in a second pass that overwrites the newlines
it scans. Both walk until they read the terminator, so nothing but the bytes
bounds them: here a read behind the memory and a store behind the array are
faults. On a stored text there are none, and the loader is the one of `Loaders`
(`dnsProxyReloadAllowlistInPlace_eq`).
-/

namespace EspAdblocker.Storage

open EspAdblocker.Lib

/-! ## The passes -/

/-- The counting pass over the bytes from `p` on. -/
def countLines : List Byte → Nat → Except Fault Nat
  | [], _ => .error .outOfBounds
  | c :: rest, lineCount =>
    if c = 0#8 then .ok lineCount else countLines rest (if c = 10#8 then lineCount + 1 else lineCount)

/-- One turn of the fill loop at `p`, the array having room for `lineCount` pointers: what it leaves, and `at_end`. -/
def fillTurn (lineCount p : Nat) (st : Split) : Except Fault (Split × Bool) :=
  match st.buf[p]? with
  | none => .error .outOfBounds
  | some c =>
    if c = 10#8 ∨ c = 0#8 then
      let buf := st.buf.set p 0#8
      match buf[st.lineStart]? with
      | none => .error .outOfBounds
      | some first =>
        if first ≠ 0#8 then
          -- `entries[count++] = line_start`, `count` being the number of starts
          if st.starts.length < lineCount then .ok (⟨buf, p + 1, st.starts ++ [st.lineStart]⟩, c == 0#8)
          else .error .outOfBounds
        else .ok (⟨buf, p + 1, st.starts⟩, c == 0#8)
    else .ok (st, false)

/-- The fill loop from `p` on, with `left` bytes of memory there: where it broke off, and what it leaves. -/
def fillFrom (lineCount : Nat) : (left p : Nat) → Split → Except Fault (Nat × Split)
  | 0, _, _ => .error .outOfBounds
  | left + 1, p, st => do
    let (st, atEnd) ← fillTurn lineCount p st
    if atEnd then return (p, st) else fillFrom lineCount left (p + 1) st

/-- The fill loop over a buffer. -/
def fillEntries (buf : List Byte) (lineCount : Nat) : Except Fault (Nat × Split) :=
  fillFrom lineCount buf.length 0 ⟨buf, 0, []⟩

theorem countLines_eq {text : List Byte} (free : NulFree text) (behind : List Byte) (lineCount : Nat) :
    countLines (text ++ 0#8 :: behind) lineCount = .ok (lineCount + text.count 10#8) := by
  induction text generalizing lineCount with
  | nil => rfl
  | cons c text ih =>
    rw [List.cons_append, countLines, if_neg free.head, ih free.tail, List.count_cons]
    by_cases newline : c = 10#8
    · simp [newline, Nat.add_assoc, Nat.add_comm]
    · simp [newline]

/-- A turn inside the memory does what `splitStep` does, as long as the array has room. -/
theorem fillTurn_eq {lineCount p : Nat} {st : Split} {c : Byte} (here : st.buf[p]? = some c) (started : st.lineStart ≤ p)
    (room : st.starts.length < lineCount) :
    fillTurn lineCount p st = .ok (splitStep endsAllowlistLine st p, c == 0#8) := by
  have inside : p < st.buf.length := (List.getElem?_eq_some_iff.mp here).1
  have byte : st.buf.getD p 0#8 = c := by rw [List.getD_eq_getElem?_getD, here, Option.getD_some]
  have first : (st.buf.set p 0#8)[st.lineStart]? = some ((st.buf.set p 0#8).getD st.lineStart 0#8) := by
    have start_inside : st.lineStart < (st.buf.set p 0#8).length := by
      rw [List.length_set]
      omega
    rw [List.getD_eq_getElem?_getD, List.getElem?_eq_getElem start_inside, Option.getD_some]
  rw [fillTurn, here, splitStep, byte]
  by_cases ends : c = 10#8 ∨ c = 0#8
  · have closes : endsAllowlistLine c = true := by simpa [endsAllowlistLine] using ends
    simp only [if_pos ends, first, closes, if_true, if_pos room]
    split <;> rfl
  · have passes : endsAllowlistLine c = false := by simpa [endsAllowlistLine] using ends
    have not_end : (c == 0#8) = false := by simpa using fun nul => ends (.inr nul)
    simp only [if_neg ends, passes, Bool.false_eq_true, if_false, not_end]

/-- In a text without NUL the lines end at its newlines. -/
theorem countP_endsAllowlistLine {text : List Byte} (free : NulFree text) :
    text.countP endsAllowlistLine = text.count 10#8 := by
  refine List.countP_congr fun c member => ?_
  have nonzero := free c member
  simp [endsAllowlistLine, nonzero]

section

variable {text : List Byte} (behind : List Byte) {lineCount : Nat}

/-- The fill loop's turn at a byte of the text or at its terminator. -/
theorem fillTurn_split (free : NulFree text) (room : text.count 10#8 < lineCount) {p : Nat} {c : Byte}
    (here : (text ++ 0#8 :: behind)[p]? = some c) (inside : p ≤ text.length) :
    fillTurn lineCount p (splitLines endsAllowlistLine (text ++ 0#8 :: behind) p) =
      .ok (splitLines endsAllowlistLine (text ++ 0#8 :: behind) (p + 1), c == 0#8) := by
  have kept := splitLines_behind endsAllowlistLine (text ++ 0#8 :: behind) p
  have stored : (splitLines endsAllowlistLine (text ++ 0#8 :: behind) p).starts.length ≤ text.count 10#8 :=
    calc _ ≤ ((text ++ 0#8 :: behind).take p).countP endsAllowlistLine := length_starts_le _ _ (by simp; omega)
      _ = (text.take p).countP endsAllowlistLine := by rw [List.take_append_of_le_length inside]
      _ ≤ text.countP endsAllowlistLine := (List.take_sublist p text).countP_le
      _ = text.count 10#8 := countP_endsAllowlistLine free
  rw [splitLines_succ]
  exact fillTurn_eq ((kept.ahead p (Nat.le_refl p)).trans here) kept.lineStart (Nat.lt_of_le_of_lt stored room)

/-- The fill loop from any byte of the text to the terminator, by induction on the bytes between. -/
theorem fillFrom_split (free : NulFree text) (room : text.count 10#8 < lineCount) {between p : Nat}
    (ahead : p + between = text.length) :
    fillFrom lineCount (between + 1 + behind.length) p (splitLines endsAllowlistLine (text ++ 0#8 :: behind) p) =
      .ok (text.length, splitLines endsAllowlistLine (text ++ 0#8 :: behind) (text.length + 1)) := by
  induction between generalizing p with
  | zero =>
    obtain rfl : p = text.length := ahead
    have terminator : (text ++ 0#8 :: behind)[text.length]? = some 0#8 := by simp
    rw [Nat.zero_add, Nat.add_comm 1, fillFrom, fillTurn_split behind free room terminator (Nat.le_refl _)]
    rfl
  | succ between ih =>
    have inside : p < text.length := by omega
    have byte : (text ++ 0#8 :: behind)[p]? = some text[p] := by
      rw [List.getElem?_append_left inside, List.getElem?_eq_getElem inside]
    have nonzero : (text[p] == 0#8) = false := by simpa using free _ (List.getElem_mem inside)
    have rest := ih (p := p + 1) (by omega)
    have left : between + 1 + 1 + behind.length = between + 1 + behind.length + 1 := Nat.add_right_comm ..
    rw [left, fillFrom, fillTurn_split behind free room byte (Nat.le_of_lt inside), nonzero]
    exact rest

/-- **The fill loop stops at the terminator**, having split the text, and finds room for every entry. -/
theorem fillEntries_eq (free : NulFree text) (room : text.count 10#8 < lineCount) :
    fillEntries (text ++ 0#8 :: behind) lineCount =
      .ok (text.length, splitLines endsAllowlistLine (text ++ 0#8 :: behind) (text.length + 1)) := by
  have walk := fillFrom_split behind free room (Nat.zero_add text.length)
  have memory : (text ++ 0#8 :: behind).length = text.length + 1 + behind.length := by
    rw [List.length_append, List.length_cons]
    omega
  rw [fillEntries, memory]
  exact walk

/-- The loop has stored no more entries than lines were counted. -/
theorem length_starts_le_lines (free : NulFree text) :
    (splitLines endsAllowlistLine (text ++ 0#8 :: behind) (text.length + 1)).starts.length ≤ 1 + text.count 10#8 :=
  calc _ ≤ ((text ++ 0#8 :: behind).take (text.length + 1)).countP endsAllowlistLine :=
        length_starts_le _ _ (by simp)
    _ = text.countP endsAllowlistLine + 1 := by
      rw [List.take_length_add_append, List.countP_append]
      rfl
    _ = 1 + text.count 10#8 := by rw [countP_endsAllowlistLine free, Nat.add_comm]

end

/-! ## The loader with its passes -/

/-- Go on with what a pass returned; a fault ends the run. -/
def orAbort {α : Type} : Except Fault α → DeviceM α
  | .ok a => return a
  | .error fault => do
    let impossible ← perform (.abort fault)
    nomatch impossible

/-- Split the text in `buf` and publish it. No byte behind the terminator may be read. -/
def installAllowlistInPlace (buf : Nat) (text : List Byte) : DeviceM Unit := do
  perform (.storeChars buf (text ++ [0#8]))
  let lineCount ← orAbort (countLines (text ++ [0#8]) 1)
  match ← mallocPtrs lineCount with
  | none => free buf
  | some entries =>
    let (_, st) ← orAbort (fillEntries (text ++ [0#8]) lineCount)
    perform (.storeChars buf st.buf)
    perform (.storePtrs entries (st.starts.map fun start => (buf, start)))
    assign fun s => { s with allowlistBuf := some buf }
    assign fun s => { s with allowlistEntries := some entries }
    assign fun s => { s with allowlistCount := st.starts.length }

/-- `dns_proxy_reload_allowlist`. -/
def dnsProxyReloadAllowlistInPlace : DeviceM Unit := do
  releaseAllowlist
  match ← mallocChars 2048 with
  | none => return ()
  | some buf =>
    match ← perform .getAllowlist with
    | none => free buf
    | some text => if (text ++ [0#8])[0]? = some 0#8 then free buf else installAllowlistInPlace buf text

/-- The text of an empty C string starts with its terminator. -/
theorem starts_with_nul_iff (text : List Byte) : (text ++ [0#8])[0]? = some 0#8 ↔ cstr text = [] := by
  cases text with
  | nil => simp [cstr]
  | cons c text => simp [cstr, List.takeWhile_cons]

theorem installAllowlistInPlace_eq (buf : Nat) (text : List Byte) :
    installAllowlistInPlace buf text = installAllowlist buf text := by
  obtain ⟨rest, stored⟩ := exists_append_nul text
  have free := nulFree_cstr text
  have room : (cstr text).count 10#8 < 1 + (cstr text).count 10#8 := by omega
  have counted := countLines_eq free rest 1
  have filled := fillEntries_eq rest free room
  rw [← stored] at counted filled
  rw [installAllowlistInPlace, installAllowlist, counted]
  simp only [orAbort, Prog.pure_eq, Prog.bind_eq, Prog.ret_bind, filled]
  rfl

/-- **With its passes the loader is the same program**: they never fault. -/
theorem dnsProxyReloadAllowlistInPlace_eq : dnsProxyReloadAllowlistInPlace = dnsProxyReloadAllowlist := by
  have stored (buf : Nat) (text : List Byte) :
      (if (text ++ [0#8])[0]? = some 0#8 then free buf else installAllowlistInPlace buf text) =
        if cstr text = [] then free buf else installAllowlist buf text :=
    if_congr (starts_with_nul_iff text) rfl (installAllowlistInPlace_eq buf text)
  rw [dnsProxyReloadAllowlistInPlace]
  simp only [stored]
  rfl

/-! ## What a reload performs -/

/-- What a reload of the allowlist performs. -/
def LoadsAllowlist : Op → Prop
  | .getAllowlist | .readStatics | .assign _ => True
  | .mallocChars _ | .mallocPtrs _ | .free _ | .storeChars _ _ | .storePtrs _ _ => True
  | _ => False

theorem LoadsAllowlist.volatile {op : Op} (h : LoadsAllowlist op) : Volatile op := by
  cases op <;> trivial

theorem LoadsAllowlist.ne_abort {op : Op} (h : LoadsAllowlist op) (fault : Fault) : op ≠ .abort fault := by
  rintro rfl
  exact h

theorem installAllowlist_loads (buf : Nat) (text : List Byte) : (installAllowlist buf text).Only LoadsAllowlist := by
  simp only [installAllowlist, Prog.bind_eq, Prog.perform_bind]
  refine .call trivial fun _ => .call trivial fun entries => ?_
  split
  · exact .call trivial fun _ => trivial
  · exact .call trivial fun _ => .call trivial fun _ =>
      .call trivial fun _ => .call trivial fun _ => .call trivial fun _ => trivial

theorem dnsProxyReloadAllowlist_loads : dnsProxyReloadAllowlist.Only LoadsAllowlist := by
  simp only [dnsProxyReloadAllowlist, Prog.bind_eq, Prog.perform_bind, Prog.pure_eq]
  refine .bind (releaseAllowlist_only trivial (fun _ => trivial) fun _ => trivial) fun _ => .call trivial fun buf => ?_
  split
  · trivial
  refine .call trivial fun text => ?_
  split
  · exact .call trivial fun _ => trivial
  split
  · exact .call trivial fun _ => trivial
  · exact installAllowlist_loads _ _

end EspAdblocker.Storage
