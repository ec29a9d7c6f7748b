import EspAdblocker.Lib.Bytes

/-!
# Character data

A fragment of markup stands for a text when it is made of plain bytes and of
character references. A text that is its own fragment holds none of the bytes
that markup is made of, since a reference is longer than what it stands for.
-/

namespace EspAdblocker.Lib

/-- A byte that begins a tag or a reference, or ends a tag. -/
def Markup (b : Byte) : Prop := b = 0x3C#8 ∨ b = 0x3E#8 ∨ b = 0x26#8

instance (b : Byte) : Decidable (Markup b) := inferInstanceAs (Decidable (_ ∨ _))

/-- Character references and the bytes they stand for. -/
def references : List (List Byte × Byte) :=
  [([0x26#8, 0x6C#8, 0x74#8, 0x3B#8], 0x3C#8), ([0x26#8, 0x67#8, 0x74#8, 0x3B#8], 0x3E#8),
    ([0x26#8, 0x61#8, 0x6D#8, 0x70#8, 0x3B#8], 0x26#8), ([0x26#8, 0x71#8, 0x75#8, 0x6F#8, 0x74#8, 0x3B#8], 0x22#8),
    ([0x26#8, 0x23#8, 0x33#8, 0x39#8, 0x3B#8], 0x27#8)]

/-- The fragment stands for the text: each byte as it is or as a reference, and markup only as references. -/
inductive CharacterData : List Byte → List Byte → Prop where
  | nil : CharacterData [] []
  | plain {b : Byte} {s t : List Byte} : ¬ Markup b → CharacterData s t → CharacterData (b :: s) (b :: t)
  | reference {name : List Byte} {b : Byte} {s t : List Byte} :
      (name, b) ∈ references → CharacterData s t → CharacterData (name ++ s) (b :: t)

/-- A fragment that is no longer than its text is plain. -/
theorem CharacterData.plain_of_length {s t : List Byte} (h : CharacterData s t) :
    t.length ≤ s.length ∧ (s.length = t.length → ∀ b ∈ s, ¬ Markup b) := by
  induction h with
  | nil => exact ⟨Nat.le_refl _, fun _ => nofun⟩
  | @plain b s t other _ ih =>
    obtain ⟨short, plain⟩ := ih
    refine ⟨Nat.succ_le_succ short, fun same b' member => ?_⟩
    rcases List.mem_cons.mp member with rfl | behind
    · exact other
    · exact plain (Nat.succ.inj same) b' behind
  | @reference name b s t listed _ ih =>
    have each : ∀ ref ∈ references, 4 ≤ ref.1.length := by decide
    have long : 4 ≤ name.length := each _ listed
    obtain ⟨short, -⟩ := ih
    rw [List.length_append, List.length_cons]
    exact ⟨by omega, fun same => by omega⟩

/-- **A text is its own fragment exactly when it holds no markup.** -/
theorem characterData_self_iff {s : List Byte} : CharacterData s s ↔ ∀ b ∈ s, ¬ Markup b := by
  constructor
  · exact fun h => h.plain_of_length.2 rfl
  · intro plain
    induction s with
    | nil => exact .nil
    | cons b s ih => exact .plain (plain b List.mem_cons_self) (ih fun b' member => plain b' (List.mem_cons_of_mem b member))

end EspAdblocker.Lib
