import EspAdblocker.Storage.State

/-!
# A device on which every operation succeeds

`Device.ideal` answers each operation as flash, card, heap and network do when
nothing goes wrong. Its answers are among those the semantics allows
(`ideal_step`), so a program run in it is a run of the program.
-/

namespace EspAdblocker.Storage

open EspAdblocker.Lib

namespace Device

/-- A number that names nothing yet, among the first sixteen. -/
def fresh {α : Type} (table : Nat → Option α) : Option Nat :=
  (List.range 16).find? fun i => (table i).isNone

theorem eq_none_of_fresh {α : Type} {table : Nat → Option α} {i : Nat} (found : fresh table = some i) :
    table i = none := by
  simpa using List.find?_some found

/-- The answer of a device on which every operation succeeds, `server` being the
other end of the network. Undefined behaviour has none. -/
def ideal (server : List Byte → Reply) (d : Device) : (op : Op) → Option (Res op × Device)
  | .getBloomSlot => some (d.nvs.bloomActiveSlot, d)
  | .getListSlot => some (d.nvs.exactListActiveSlot, d)
  | .setBloomSlot slot => some (.ok, { d with nvs := { d.nvs with bloomSlot := some slot } })
  | .setListSlot slot => some (.ok, { d with nvs := { d.nvs with listSlot := some slot } })
  | .getAllowlist => some (d.nvs.allowlistText, d)
  | .findPartition h => some (d.partSize h, d)
  | .eraseRange h => some (.ok, d.withFlash h (List.replicate ((d.partSize h).getD 0#32).toNat 0xFF#8))
  | .writePartition h bytes => some (.ok, d.withFlash h (bytes ++ (d.flash h).drop bytes.length))
  | .mmap h =>
    match fresh d.maps with
    | none => some (none, d)
    | some handle => some (some handle, d.withMap handle (some h))
  | .munmap handle => some ((), d.withMap handle none)
  | .readRegion region => some ((d.regionBytes region).getD [], d)
  | .httpGet url => some (server url, d)
  | .fopenWrite f => some (true, d.withFile f (some []))
  | .fwrite f bytes => some (true, d.withFile f (some (d.fileBytes f ++ bytes)))
  | .fcloseWrite _ => some (true, d)
  | .remove f => some (true, d.withFile f none)
  | .fopenRead f => some ((d.files f).isSome, d)
  | .fileSize f => some (if (d.fileBytes f).length < 2 ^ 31 then (d.fileBytes f).length else -1, d)
  | .fread f size => some ((d.fileBytes f).take size, d)
  | .readAll f => some (d.fileBytes f, d)
  | .mallocChars size =>
    match fresh d.heap with
    | none => some (none, d)
    | some block => some (some block, d.withBlock block (some (.chars (List.replicate size 0#8))))
  | .mallocPtrs count =>
    match fresh d.heap with
    | none => some (none, d)
    | some block => some (some block, d.withBlock block (some (.ptrs (List.replicate count none))))
  | .free block => some ((), d.withBlock block none)
  | .storeChars block bytes =>
    match d.heap block with
    | some (.chars old) =>
      if bytes.length ≤ old.length then some ((), d.withBlock block (some (.chars (bytes ++ old.drop bytes.length))))
      else none
    | _ => none
  | .storePtrs block entries =>
    match d.heap block with
    | some (.ptrs old) =>
      if entries.length ≤ old.length then
        some ((), d.withBlock block (some (.ptrs (entries.map some ++ old.drop entries.length))))
      else none
    | _ => none
  | .readStatics => some (d.statics, d)
  | .assign update => some ((), { d with statics := update d.statics })
  | .abort _ => none

/-- The semantics allows every answer of the ideal device. -/
theorem ideal_step (short : Bool) (server : List Byte → Reply) {d d' : Device} {op : Op} {r : Res op}
    (answered : d.ideal server op = some (r, d')) : (deviceSem short).step d op r d' := by
  change Device.step short d op r d'
  cases op with
  | mmap h =>
    simp only [ideal] at answered
    split at answered
    · cases answered; rfl
    · rename_i handle free
      cases answered
      exact ⟨eq_none_of_fresh free, rfl⟩
  | mallocChars size =>
    simp only [ideal] at answered
    split at answered
    · cases answered; rfl
    · rename_i block free
      cases answered
      exact ⟨eq_none_of_fresh free, _, List.length_replicate, rfl⟩
  | mallocPtrs count =>
    simp only [ideal] at answered
    split at answered
    · cases answered; rfl
    · rename_i block free
      cases answered
      exact ⟨eq_none_of_fresh free, rfl⟩
  | readRegion region =>
    cases answered
    exact ⟨fun bytes shown => by rw [shown]; rfl, rfl⟩
  | fopenRead f => cases answered; exact ⟨fun opened => opened, rfl⟩
  | fileSize f =>
    cases answered
    refine ⟨?_, rfl⟩
    split
    · rename_i fits
      exact .inl ⟨rfl, fits⟩
    · exact .inr rfl
  | fread | readAll => cases answered; exact ⟨⟨List.prefix_refl _, fun _ => rfl⟩, rfl⟩
  | getBloomSlot | getListSlot | getAllowlist | findPartition | readStatics => cases answered; exact ⟨rfl, rfl⟩
  | setBloomSlot | setListSlot | eraseRange | writePartition | fopenWrite | fwrite | fcloseWrite | remove =>
    cases answered
    simp [Device.step]
  | munmap | httpGet | free | assign => cases answered; rfl
  | storeChars | storePtrs =>
    simp only [ideal] at answered
    split at answered
    · rename_i old live
      split at answered
      · rename_i fits
        cases answered
        exact ⟨old, live, fits, rfl⟩
      · cases answered
    · cases answered
  | abort => cases answered

/-- What the ideal device makes of a program is a run of it. -/
theorem runs_ideal (short : Bool) {server : List Byte → Reply} {α : Type} {p : DeviceM α} {d d' : Device} {a : α}
    (run : p.exec (ideal server) d = some (a, d')) : (deviceSem short).Runs p d a d' :=
  Sem.runs_exec (fun _ _ _ _ => ideal_step short server) run

/-- The same, with the operations recorded. -/
theorem runs_recorded_ideal (short : Bool) {server : List Byte → Reply} {α : Type} {p : DeviceM α}
    {w w' : Device × List Event} {a : α} (run : p.exec (Sem.recorded (ideal server)) w = some (a, w')) :
    (deviceSem short).traced.Runs p w a w' :=
  Sem.runs_exec (fun _ _ _ _ => Sem.recorded_step fun _ _ _ _ => ideal_step short server) run

end Device

end EspAdblocker.Storage
