import EspAdblocker.Storage.DomainList

/-!
# The allowlist that is loaded

`dns_proxy_reload_allowlist` splits the stored text at its newlines and
publishes the pieces that are not empty, each byte for byte as it was stored
(`allowlistLines`); when an allocation fails it publishes nothing
(`dnsProxyReloadAllowlist_ends`).
-/

namespace EspAdblocker.Storage

open EspAdblocker.Lib

/-! ## Lines of text -/

/-- The pieces of a text between its newlines that are not empty. -/
def allowlistLines (text : List Byte) : List (List Byte) := ((cstr text).splitOn 10#8).filter (· ≠ [])

/-- Every line is a C string. -/
theorem nulFree_of_mem_allowlistLines {text name : List Byte} (member : name ∈ allowlistLines text) : NulFree name := by
  rw [allowlistLines, List.mem_filter] at member
  exact fun b present => nulFree_cstr text b ((mem_splitOn member.1).2 b present)

/-- Pieces with the bytes that end them: a newline behind each but the last, which the terminator ends. -/
def closePieces : List (List Byte) → List (List Byte × Byte)
  | [] => []
  | [piece] => [(piece, 0#8)]
  | piece :: second :: pieces => (piece, 10#8) :: closePieces (second :: pieces)

theorem map_fst_closePieces (pieces : List (List Byte)) : (closePieces pieces).map Prod.fst = pieces := by
  induction pieces using closePieces.induct with
  | case1 => rfl
  | case2 piece => rfl
  | case3 piece second pieces ih => rw [closePieces, List.map_cons, ih]

theorem closedText_closePieces {pieces : List (List Byte)} (some_piece : pieces ≠ []) :
    closedText (closePieces pieces) = joined 10#8 pieces ++ [0#8] := by
  induction pieces using closePieces.induct with
  | case1 => exact absurd rfl some_piece
  | case2 piece => simp [closePieces, closedText]
  | case3 piece second pieces ih =>
    have rest := ih (List.cons_ne_nil _ _)
    rw [closedText] at rest
    rw [closePieces, closedText, List.flatMap_cons, rest, joined_cons_cons]
    simp

theorem snd_closePieces {pieces : List (List Byte)} {line : List Byte × Byte} (member : line ∈ closePieces pieces) :
    line.2 = 10#8 ∨ line.2 = 0#8 := by
  induction pieces using closePieces.induct with
  | case1 => cases member
  | case2 piece =>
    rw [closePieces, List.mem_singleton] at member
    exact .inr (congrArg Prod.snd member)
  | case3 piece second pieces ih =>
    rw [closePieces, List.mem_cons] at member
    rcases member with rfl | later
    · exact .inl rfl
    · exact ih later

/-- A byte that ends a line of the allowlist. -/
def endsAllowlistLine (b : Byte) : Bool := b == 10#8 || b == 0#8

/-- The pieces of a text are lines that end at a newline or at the terminator. -/
theorem closedLines_closePieces {s : List Byte} (free : NulFree s) :
    ClosedLines endsAllowlistLine (closePieces (s.splitOn 10#8)) := by
  have piece {line : List Byte × Byte} (member : line ∈ closePieces (s.splitOn 10#8)) :
      10#8 ∉ line.1 ∧ ∀ b ∈ line.1, b ∈ s := by
    apply mem_splitOn
    rw [← map_fst_closePieces (s.splitOn 10#8)]
    exact List.mem_map_of_mem member
  constructor
  · intro line member b present
    exact free b ((piece member).2 b present)
  · intro line member b present
    have notNewline : b ≠ 10#8 := fun newline => (piece member).1 (newline ▸ present)
    have notNul := free b ((piece member).2 b present)
    simp [endsAllowlistLine, notNewline, notNul]
  · intro line member
    rcases snd_closePieces member with close | close <;> rw [close] <;> rfl

/-- What the loop makes of a text: starts inside the buffer, of the lines that are not empty. -/
theorem splitLines_allowlist {s : List Byte} (free : NulFree s) (rest : List Byte) :
    let split := splitLines endsAllowlistLine (s ++ 0#8 :: rest) (s.length + 1)
    (∀ start ∈ split.starts, start < split.buf.length) ∧
      ∀ more, split.starts.map (fun start => cstr ((split.buf ++ more).drop start)) =
        (s.splitOn 10#8).filter (· ≠ []) := by
  have text : closedText (closePieces (s.splitOn 10#8)) = s ++ [0#8] := by
    rw [closedText_closePieces (List.splitOn_ne_nil _ _), joined, List.intercalate_splitOn]
  have lines := closedLines_closePieces free
  have behind := splitLines_behind endsAllowlistLine (s ++ 0#8 :: rest) (s.length + 1)
  have split := splitLines_eq lines (show ∀ b ∈ ([] : List Byte), endsAllowlistLine b = false by simp) rest
  simp only [List.append_nil, text, List.append_assoc, List.singleton_append, List.length_append, List.length_singleton]
    at split
  refine ⟨fun start member => ?_, fun more => ?_⟩
  · have inside := behind.starts start member
    rw [behind.length, List.length_append, List.length_cons]
    omega
  · have strings := map_cstr_lineStarts lines [] (rest ++ more)
    rw [map_fst_closePieces] at strings
    rw [split, ← strings]
    simp only [List.nil_append, List.append_assoc, List.length_nil]

/-- A stored text holds its C string and the terminator, whatever follows. -/
theorem exists_append_nul (text : List Byte) : ∃ rest, text ++ [0#8] = cstr text ++ 0#8 :: rest := by
  induction text with
  | nil => exact ⟨[], rfl⟩
  | cons b text ih =>
    by_cases nul : b = 0#8
    · exact ⟨text ++ [0#8], by simp [cstr, nul]⟩
    · obtain ⟨rest, same⟩ := ih
      refine ⟨rest, ?_⟩
      rw [cstr, List.takeWhile_cons_of_pos (by simpa using nul), List.cons_append, same]
      rfl

/-! ## A reload -/

/-- The operation is an allocation that failed. -/
def failedAlloc : Event → Bool
  | ⟨.mallocChars _, none⟩ => true
  | ⟨.mallocPtrs _, none⟩ => true
  | _ => false

/-- The statics point to these names, or count none. -/
structure AllowlistLoaded (names : List (List Byte)) (d : Device) : Prop where
  count : d.statics.allowlistCount = names.length
  entries : names ≠ [] → ∃ entries, d.statics.allowlistEntries = some entries ∧ d.strings entries names.length = .ok names

/-- Nothing is loaded. -/
theorem AllowlistLoaded.nothing {d : Device} (empty : d.statics.allowlistCount = 0) : AllowlistLoaded [] d :=
  ⟨empty, fun some_name => absurd rfl some_name⟩

/-- The lines of a text are loaded once the statics point to them. -/
theorem allowlistLoaded_of_published {d : Device} {text tail : List Byte} {split : Split} {buf entries : Nat}
    {old : List (Option CharPtr)} (inside : ∀ start ∈ split.starts, start < split.buf.length)
    (strings : ∀ more, split.starts.map (fun start => cstr ((split.buf ++ more).drop start)) = allowlistLines text)
    (chars : d.heap buf = some (.chars (split.buf ++ tail)))
    (ptrs : d.heap entries = some (.ptrs ((split.starts.map fun start => (buf, start)).map some ++ old)))
    (published : d.statics.allowlistEntries = some entries) (counted : d.statics.allowlistCount = split.starts.length) :
    AllowlistLoaded (allowlistLines text) d := by
  have shown := strings_of_starts chars ptrs fun start member => by
    rw [List.length_append]
    exact Nat.lt_add_right _ (inside start member)
  have count := congrArg List.length (strings tail)
  rw [List.length_map] at count
  rw [strings tail, count] at shown
  exact ⟨counted.trans count, fun _ => ⟨entries, published, shown⟩⟩

section

variable {short : Bool}

/-- Publishing a text, from a state that has nothing loaded. -/
theorem installAllowlist_ends {buf : Nat} {junk : List Byte} {d : Device} (live : d.heap buf = some (.chars junk))
    (empty : d.statics.allowlistCount = 0) (text : List Byte) :
    (deviceSem short).traced.Ends (installAllowlist buf text) (fun _ v =>
      AllowlistLoaded (if v.2.any failedAlloc then [] else allowlistLines text) v.1) (d, []) := by
  obtain ⟨rest, stored⟩ := exists_append_nul text
  obtain ⟨inside, strings⟩ := splitLines_allowlist (nulFree_cstr text) rest
  rw [← stored] at inside strings
  simp only [installAllowlist, Prog.bind_eq, Prog.perform_bind]
  refine Sem.ends_traced_call fun _ d₁ stored₁ => ?_
  obtain ⟨heap₁, statics₁⟩ := storeChars_heap live stored₁
  have chars₁ := congrFun heap₁ buf
  rw [Function.update_self] at chars₁
  refine Sem.ends_traced_call fun entries d₂ allocated => ?_
  cases entries with
  | none =>
    obtain rfl : d₂ = d₁ := allocated
    refine Sem.ends_traced_call fun _ d₃ freed => Sem.ends_ret ?_
    obtain rfl : d₃ = _ := freed
    refine .nothing ?_
    change d₂.statics.allowlistCount = 0
    rw [statics₁, empty]
  | some entries =>
    obtain ⟨fresh, rfl⟩ := allocated
    refine Sem.ends_traced_call fun _ d₃ stored₃ => Sem.ends_traced_call fun _ d₄ stored₄ =>
      Sem.ends_traced_call fun _ d₅ set₅ => Sem.ends_traced_call fun _ d₆ set₆ => Sem.ends_traced_call fun _ d₇ set₇ =>
      Sem.ends_ret ?_
    obtain ⟨chars₄, ptrs₄, -⟩ := stores_heap stored₃ stored₄ (heap_withBlock_of_fresh fresh chars₁) (Function.update_self ..)
    obtain rfl : d₇ = _ := set₇
    obtain rfl : d₆ = _ := set₆
    obtain rfl : d₅ = _ := set₅
    change AllowlistLoaded (allowlistLines text) _
    exact allowlistLoaded_of_published inside strings chars₄ ptrs₄ rfl rfl

/-- The operation is no allocation. -/
def NoAlloc (op : Op) : Prop := ∀ r : Res op, failedAlloc ⟨op, r⟩ = false

theorem releaseAllowlist_only {P : Op → Prop} (read : P .readStatics) (freed : ∀ block, P (.free block))
    (assigned : ∀ update, P (.assign update)) : releaseAllowlist.Only P := by
  simp only [releaseAllowlist, Prog.bind_eq]
  refine .bind (only_releaseBlock _ _ read freed (assigned _)) fun _ => ?_
  refine .bind (only_releaseBlock _ _ read freed (assigned _)) fun _ => ?_
  exact .call (assigned _) fun _ => trivial

/-- Freeing what was loaded leaves nothing loaded. -/
theorem releaseAllowlist_ends (d : Device) : (deviceSem short).traced.Ends releaseAllowlist (fun _ v =>
    SamePersistent d v.1 ∧ v.1.statics.allowlistCount = 0 ∧ v.2.any failedAlloc = false) (d, []) := by
  have persistent : releaseAllowlist.Only Volatile :=
    releaseAllowlist_only trivial (fun _ => trivial) fun _ => trivial
  have quiet : releaseAllowlist.Only NoAlloc :=
    releaseAllowlist_only (fun _ => rfl) (fun _ _ => rfl) fun _ _ => rfl
  have cleared : (deviceSem short).Ends releaseAllowlist (fun _ d' => d'.statics.allowlistCount = 0) d := by
    simp only [releaseAllowlist, Prog.bind_eq]
    refine Sem.ends_bind fun _ d₁ _ => Sem.ends_bind fun _ d₂ _ => Sem.ends_call fun _ d₃ set => Sem.ends_ret ?_
    obtain rfl : d₃ = _ := set
    rfl
  refine (((ends_samePersistent persistent d).traced []).and ((cleared.traced []).and
    (Sem.ends_traced_only quiet d))).mono fun _ v => ?_
  rintro ⟨same, empty, none_failed⟩
  refine ⟨same, empty, List.any_eq_false.mpr fun e member => ?_⟩
  rw [none_failed e member e.2]
  decide

/-- **A reload publishes the lines of the stored text as they were stored**, or
nothing when an allocation fails. -/
theorem dnsProxyReloadAllowlist_ends (d : Device) :
    (deviceSem short).traced.Ends dnsProxyReloadAllowlist (fun _ v => AllowlistLoaded
      (if v.2.any failedAlloc then [] else d.nvs.allowlistText.elim [] allowlistLines) v.1) (d, []) := by
  simp only [dnsProxyReloadAllowlist, Prog.bind_eq, Prog.perform_bind, Prog.pure_eq]
  refine Sem.ends_traced_bind ((releaseAllowlist_ends d).mono ?_)
  rintro _ ⟨d₁, released⟩ ⟨same, empty, quiet⟩
  dsimp only at same empty quiet
  simp only [List.any_append, quiet, Bool.false_or]
  refine Sem.ends_traced_call fun buf d₂ allocated => ?_
  cases buf with
  | none =>
    obtain rfl : d₂ = d₁ := allocated
    exact Sem.ends_ret (.nothing empty)
  | some buf =>
    obtain ⟨-, junk, -, rfl⟩ := allocated
    refine Sem.ends_traced_call fun text d₃ got => ?_
    obtain ⟨read, rfl⟩ := got
    have stored : d.nvs.allowlistText = text := by
      rw [read, ← same.nvs]
      rfl
    rw [stored]
    have live : (d₁.withBlock buf (some (.chars junk))).heap buf = some (.chars junk) := Function.update_self ..
    cases text with
    | none =>
      refine Sem.ends_traced_call fun _ d₄ freed => Sem.ends_ret ?_
      obtain rfl : d₄ = _ := freed
      exact .nothing empty
    | some text =>
      dsimp only
      split
      · rename_i blank
        refine Sem.ends_traced_call fun _ d₄ freed => Sem.ends_ret ?_
        obtain rfl : d₄ = _ := freed
        have no_lines : allowlistLines text = [] := by
          rw [allowlistLines, blank]
          rfl
        simp only [Option.elim_some, no_lines, ite_self]
        exact .nothing empty
      · refine (installAllowlist_ends live empty text).mono fun _ v loaded => ?_
        exact loaded

end

end EspAdblocker.Storage
