import EspAdblocker.Lib.Labels

/-!
# Terminated lines

A text is the lines a separator ends, each with it, and a last piece that holds
none (`exists_terminated`). What follows a text leaves the lines it has alone
(`terminated_closedBy_append`), so the lines of a prefix are a prefix of the
lines (`terminated_mono`).
-/

namespace EspAdblocker.Lib

section

variable {α : Type} {sep : α}

/-- Lines, each closed by the separator. -/
def closedBy (sep : α) (lines : List (List α)) : List α := lines.flatMap fun line => line ++ [sep]

theorem closedBy_cons (line : List α) (lines : List (List α)) :
    closedBy sep (line :: lines) = line ++ sep :: closedBy sep lines := by
  rw [closedBy, List.flatMap_cons, ← closedBy, List.append_assoc]
  rfl

/-- Pieces joined by separators are lines and a last piece. -/
theorem joined_concat_eq (lines : List (List α)) (last : List α) :
    joined sep (lines ++ [last]) = closedBy sep lines ++ last := by
  induction lines with
  | nil => exact joined_singleton last
  | cons line lines ih =>
    rw [closedBy_cons, List.append_assoc, List.cons_append, List.cons_append, ← ih]
    cases lines with
    | nil => exact joined_cons_cons line last []
    | cons second lines => exact joined_cons_cons line second (lines ++ [last])

variable [BEq α] [LawfulBEq α]

/-- The lines of a text that the separator ends. -/
def terminated (sep : α) (text : List α) : List (List α) := (text.splitOn sep).dropLast

theorem not_mem_of_mem_terminated {text line : List α} (member : line ∈ terminated sep text) : sep ∉ line :=
  (mem_splitOn ((List.dropLast_sublist _).mem member)).1

/-- A text is its lines and a last piece that no separator ends. -/
theorem exists_terminated (sep : α) (text : List α) :
    ∃ rest, sep ∉ rest ∧ text = closedBy sep (terminated sep text) ++ rest := by
  have pieces := List.splitOn_ne_nil sep text
  refine ⟨(text.splitOn sep).getLast pieces, (mem_splitOn (List.getLast_mem pieces)).1, ?_⟩
  rw [← joined_concat_eq, terminated, List.dropLast_append_getLast pieces, joined, List.intercalate_splitOn]

/-- A text without a separator has no lines. -/
theorem terminated_of_not_mem {text : List α} (none_here : sep ∉ text) : terminated sep text = [] := by
  rw [terminated, List.splitOn_eq_singleton none_here]
  rfl

/-- The lines of a text that starts with lines. -/
theorem terminated_closedBy_append {lines : List (List α)} (clean : ∀ line ∈ lines, sep ∉ line) (rest : List α) :
    terminated sep (closedBy sep lines ++ rest) = lines ++ terminated sep rest := by
  induction lines with
  | nil => rfl
  | cons line lines ih =>
    have first := clean line List.mem_cons_self
    have others := ih fun other member => clean other (List.mem_cons_of_mem line member)
    have pieces := List.splitOn_ne_nil sep (closedBy sep lines ++ rest)
    rw [closedBy_cons, List.append_assoc, List.cons_append, terminated, List.splitOn_append_cons_self_of_not_mem first,
      List.dropLast_cons_of_ne_nil pieces, ← terminated, others, List.cons_append]

theorem terminated_closedBy {lines : List (List α)} (clean : ∀ line ∈ lines, sep ∉ line) :
    terminated sep (closedBy sep lines) = lines := by
  have lines_eq := terminated_closedBy_append clean []
  rwa [List.append_nil, terminated_of_not_mem List.not_mem_nil, List.append_nil] at lines_eq

/-- **The lines of a prefix are a prefix of the lines.** -/
theorem terminated_mono {text more : List α} (start : text <+: more) : terminated sep text <+: terminated sep more := by
  obtain ⟨later, rfl⟩ := start
  obtain ⟨rest, -, text_eq⟩ := exists_terminated sep text
  have lines : terminated sep (text ++ later) = terminated sep text ++ terminated sep (rest ++ later) := by
    conv => lhs; rw [text_eq]
    rw [List.append_assoc, terminated_closedBy_append fun _ => not_mem_of_mem_terminated]
  exact ⟨_, lines.symm⟩

end

end EspAdblocker.Lib
