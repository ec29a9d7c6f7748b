import EspAdblocker.Lib.Bytes

/-!
# Label sequences

A name is a sequence of labels, each of 1 to 63 bytes. It has two spellings: on
the wire each label stands behind its length and a zero byte ends the name
(`wireName`), as text the labels are joined by a separator (`joined`). The wire
spelling is prefix-free, so a name is read off any bytes that start with it; the
text determines the labels exactly when none holds the separator.
-/

namespace EspAdblocker.Lib

/-- A label. Its length fits the low six bits of a byte. -/
structure Label where
  bytes : List Byte
  nonempty : 1 ≤ bytes.length
  short : bytes.length ≤ 63
  deriving DecidableEq

namespace Label

/-- The byte in front of a label. -/
def lengthByte (l : Label) : Byte := BitVec.ofNat 8 l.bytes.length

@[simp] theorem toNat_lengthByte (l : Label) : l.lengthByte.toNat = l.bytes.length := by
  have short := l.short
  rw [lengthByte, BitVec.toNat_ofNat]
  exact Nat.mod_eq_of_lt (by omega)

theorem lengthByte_ne_zero (l : Label) : l.lengthByte ≠ 0#8 := by
  intro zero
  have value := l.toNat_lengthByte
  rw [zero] at value
  have nonempty := l.nonempty
  simp only [BitVec.toNat_ofNat] at value
  omega

/-- The two high bits of a byte are clear exactly when its value is a label's length, or zero. -/
theorem and_eq_zero_iff {b : Byte} : b &&& 0xC0#8 = 0#8 ↔ b.toNat ≤ 63 := by
  revert b
  decide

theorem lengthByte_and (l : Label) : l.lengthByte &&& 0xC0#8 = 0#8 :=
  and_eq_zero_iff.mpr (l.toNat_lengthByte ▸ l.short)

/-- A label on the wire. -/
def wire (l : Label) : List Byte := l.lengthByte :: l.bytes

@[simp] theorem length_wire (l : Label) : l.wire.length = l.bytes.length + 1 := rfl

theorem wire_append_inj {l l' : Label} {rest rest' : List Byte} (same : l.wire ++ rest = l'.wire ++ rest') :
    l = l' ∧ rest = rest' := by
  obtain ⟨length, bytes⟩ := List.cons.inj same
  have size : l.bytes.length = l'.bytes.length := by
    rw [← l.toNat_lengthByte, ← l'.toNat_lengthByte, length]
  obtain ⟨first, others⟩ := List.append_inj bytes size
  cases l
  cases l'
  cases first
  exact ⟨rfl, others⟩

theorem wire_append_ne_zero (l : Label) (rest rest' : List Byte) : l.wire ++ rest ≠ 0#8 :: rest' :=
  fun same => l.lengthByte_ne_zero (List.cons.inj same).1

theorem bytes_ne_nil (l : Label) : l.bytes ≠ [] := List.ne_nil_of_length_pos l.nonempty

end Label

/-! ## On the wire -/

/-- A name on the wire. -/
def wireName (labels : List Label) : List Byte := labels.flatMap Label.wire ++ [0#8]

@[simp] theorem wireName_nil : wireName [] = [0#8] := rfl

@[simp] theorem wireName_cons (l : Label) (labels : List Label) : wireName (l :: labels) = l.wire ++ wireName labels := by
  simp [wireName]

theorem length_wireName (labels : List Label) :
    (wireName labels).length = (labels.map fun l => l.bytes.length).sum + labels.length + 1 := by
  induction labels with
  | nil => rfl
  | cons l labels ih =>
    rw [wireName_cons, List.length_append, Label.length_wire, ih, List.map_cons, List.sum_cons, List.length_cons]
    omega

/-- **A name is read off the bytes that start with it**, and what follows it too. -/
theorem wireName_append_inj {labels labels' : List Label} {rest rest' : List Byte}
    (same : wireName labels ++ rest = wireName labels' ++ rest') : labels = labels' ∧ rest = rest' := by
  induction labels generalizing labels' with
  | nil =>
    cases labels' with
    | nil => exact ⟨rfl, (List.cons.inj same).2⟩
    | cons l' labels' =>
      rw [wireName_cons, List.append_assoc] at same
      exact absurd same.symm (l'.wire_append_ne_zero _ _)
  | cons l labels ih =>
    cases labels' with
    | nil =>
      rw [wireName_cons, List.append_assoc] at same
      exact absurd same (l.wire_append_ne_zero _ _)
    | cons l' labels' =>
      rw [wireName_cons, wireName_cons, List.append_assoc, List.append_assoc] at same
      obtain ⟨rfl, others⟩ := Label.wire_append_inj same
      obtain ⟨rfl, rest⟩ := ih others
      exact ⟨rfl, rest⟩

/-- Strings of the right sizes are labels. -/
theorem exists_labels {parts : List (List Byte)} (sizes : ∀ part ∈ parts, 1 ≤ part.length ∧ part.length ≤ 63) :
    ∃ labels : List Label, labels.map Label.bytes = parts := by
  induction parts with
  | nil => exact ⟨[], rfl⟩
  | cons part parts ih =>
    obtain ⟨nonempty, short⟩ := sizes part List.mem_cons_self
    obtain ⟨labels, others⟩ := ih fun other member => sizes other (List.mem_cons_of_mem part member)
    exact ⟨⟨part, nonempty, short⟩ :: labels, by rw [List.map_cons, others]⟩

/-- Strings on the wire: each behind its length, a zero byte at the end. -/
def prefixed (parts : List (List Byte)) : List Byte :=
  parts.flatMap (fun part => BitVec.ofNat 8 part.length :: part) ++ [0#8]

theorem prefixed_bytes (labels : List Label) : prefixed (labels.map Label.bytes) = wireName labels := by
  rw [prefixed, List.flatMap_map]
  rfl

/-! ## As text -/

/-- Pieces joined by a separator. -/
def joined {α : Type} (sep : α) (pieces : List (List α)) : List α := [sep].intercalate pieces

section Joined

variable {α : Type} {sep : α}

@[simp] theorem joined_nil : joined sep [] = [] := rfl

@[simp] theorem joined_singleton (piece : List α) : joined sep [piece] = piece := List.intercalate_singleton

theorem joined_cons_cons (piece second : List α) (pieces : List (List α)) :
    joined sep (piece :: second :: pieces) = piece ++ sep :: joined sep (second :: pieces) := by
  rw [joined, List.intercalate_cons_cons, List.append_assoc, joined]
  rfl

theorem joined_concat (piece : List α) {pieces : List (List α)} (more : pieces ≠ []) :
    joined sep (pieces ++ [piece]) = joined sep pieces ++ sep :: piece := by
  induction pieces with
  | nil => exact absurd rfl more
  | cons first pieces ih =>
    cases pieces with
    | nil => rw [List.cons_append, List.nil_append, joined_cons_cons, joined_singleton, joined_singleton]
    | cons second pieces =>
      have longer := ih (by simp)
      rw [List.cons_append] at longer
      rw [List.cons_append, List.cons_append, joined_cons_cons, longer, joined_cons_cons, List.append_assoc, List.cons_append]

theorem length_joined (pieces : List (List α)) :
    (joined sep pieces).length = (pieces.map List.length).sum + (pieces.length - 1) := by
  induction pieces with
  | nil => rfl
  | cons piece pieces ih =>
    cases pieces with
    | nil => simp
    | cons second pieces =>
      rw [joined_cons_cons, List.length_append, List.length_cons, ih, List.map_cons (a := piece), List.sum_cons]
      simp only [List.length_cons]
      omega

theorem joined_map {β : Type} (f : α → β) (pieces : List (List α)) :
    joined (f sep) (pieces.map (List.map f)) = (joined sep pieces).map f := by
  induction pieces with
  | nil => rfl
  | cons piece pieces ih =>
    cases pieces with
    | nil => simp
    | cons second pieces =>
      rw [List.map_cons] at ih
      rw [List.map_cons, List.map_cons, joined_cons_cons, ih, joined_cons_cons, List.map_append, List.map_cons]

/-- Pieces that are not empty join to nothing only if there are none. -/
theorem joined_eq_nil_iff {pieces : List (List α)} (full : ∀ piece ∈ pieces, piece ≠ []) :
    joined sep pieces = [] ↔ pieces = [] := by
  cases pieces with
  | nil => simp
  | cons piece pieces =>
    have first := full piece List.mem_cons_self
    cases pieces with
    | nil => simpa using first
    | cons second pieces => simp [joined_cons_cons, first]

theorem mem_joined {pieces : List (List α)} {a : α} (member : a ∈ joined sep pieces) :
    a = sep ∨ ∃ piece ∈ pieces, a ∈ piece := by
  induction pieces with
  | nil => cases member
  | cons piece pieces ih =>
    cases pieces with
    | nil => exact .inr ⟨piece, List.mem_cons_self, by simpa using member⟩
    | cons second pieces =>
      rw [joined_cons_cons, List.mem_append, List.mem_cons] at member
      rcases member with here | rfl | later
      · exact .inr ⟨piece, List.mem_cons_self, here⟩
      · exact .inl rfl
      · rcases ih later with rfl | ⟨other, inside, here⟩
        · exact .inl rfl
        · exact .inr ⟨other, List.mem_cons_of_mem piece inside, here⟩

/-- The pieces of a text between separators, the empty text having none. -/
def unjoined [BEq α] (sep : α) (text : List α) : List (List α) := if text.isEmpty then [] else text.splitOn sep

/-- The pieces of a text hold no separator, and nothing that is not in the text. -/
theorem mem_splitOn [BEq α] [LawfulBEq α] {text piece : List α} (member : piece ∈ text.splitOn sep) :
    sep ∉ piece ∧ ∀ a ∈ piece, a ∈ text := by
  induction text generalizing piece with
  | nil =>
    rw [List.splitOn_nil, List.mem_singleton] at member
    simp [member]
  | cons c text ih =>
    rw [List.splitOn_cons_eq_if_modifyHead] at member
    cases split : text.splitOn sep with
    | nil => exact absurd split (List.splitOn_ne_nil sep text)
    | cons first others =>
      rw [split] at ih member
      have later {other : List α} (inside : other ∈ first :: others) : sep ∉ other ∧ ∀ a ∈ other, a ∈ c :: text :=
        ⟨(ih inside).1, fun a here => List.mem_cons_of_mem c ((ih inside).2 a here)⟩
      by_cases here : c = sep
      · rw [if_pos (beq_iff_eq.mpr here)] at member
        rcases List.mem_cons.mp member with rfl | inside
        · simp
        · exact later inside
      · rw [if_neg (by simpa using here)] at member
        rcases List.mem_cons.mp member with rfl | inside
        · obtain ⟨clean, sub⟩ := later List.mem_cons_self
          refine ⟨?_, ?_⟩
          · rw [List.mem_cons, not_or]
            exact ⟨Ne.symm here, clean⟩
          · rintro a (_ | ⟨_, inside⟩)
            · exact List.mem_cons_self
            · exact sub a inside
        · exact later (List.mem_cons_of_mem first inside)

theorem mem_unjoined [BEq α] [LawfulBEq α] {text piece : List α} (member : piece ∈ unjoined sep text) :
    sep ∉ piece ∧ ∀ a ∈ piece, a ∈ text := by
  rw [unjoined] at member
  split at member
  · cases member
  · exact mem_splitOn member

/-- **The text determines the pieces** when none of them is empty or holds the separator. -/
theorem unjoined_joined [BEq α] [LawfulBEq α] {parts : List (List α)} (full : ∀ piece ∈ parts, piece ≠ [])
    (clean : ∀ piece ∈ parts, sep ∉ piece) : unjoined sep (joined sep parts) = parts := by
  by_cases empty : parts = []
  · rw [empty]; rfl
  · have text : joined sep parts ≠ [] := fun blank => empty ((joined_eq_nil_iff full).mp blank)
    rw [unjoined, List.isEmpty_eq_false_iff.mpr text, if_neg (by decide), joined, List.splitOn_intercalate sep clean empty]

end Joined

end EspAdblocker.Lib
