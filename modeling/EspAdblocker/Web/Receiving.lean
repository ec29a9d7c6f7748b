import EspAdblocker.Dns.BlockReply
import EspAdblocker.Storage.Installing
import EspAdblocker.Web.Config

/-!
# Bodies that arrive in pieces

`read_body` receives a body piece by piece into a buffer on the handler's stack and ends
it there as a C string. Whatever the pieces are, it writes only into the buffer and does
with it what `readBody` does with the body as a whole (`received_in_any_pieces`).
-/

namespace EspAdblocker.Web

open EspAdblocker.Lib EspAdblocker.Dns EspAdblocker.Storage

/-! ## The loop -/

/-- What is received to `buf + offset`. -/
def receiveAt (buf : List Byte) (offset : Nat) (bytes : List Byte) : Except Fault (List Byte) :=
  if offset + bytes.length ≤ buf.length then .ok (writeAt buf offset bytes) else .error .outOfBounds

/-- The loop of `read_body`: each `httpd_req_recv` hands over at most what it is asked for of the piece
that has arrived, and nothing when the connection is closed, fails or times out. -/
def readBodyLoop (contentLen : Nat) : List (List Byte) → Nat → List Byte → Except Fault (Option Nat × List Byte)
  | [], received, buf => .ok (if received < contentLen then none else some received, buf)
  | piece :: pieces, received, buf =>
    if received < contentLen then
      let r := piece.take (contentLen - received)
      if r = [] then .ok (none, buf)
      else do
        let buf ← receiveAt buf received r
        readBodyLoop contentLen pieces (received + r.length) buf
    else .ok (some received, buf)

/-- `read_body`: whether it succeeded, and what the buffer holds then. -/
def readBodyInto (contentLen : Nat) (pieces : List (List Byte)) (buf : List Byte) : Except Fault (Bool × List Byte) :=
  if contentLen = 0 ∨ contentLen ≥ buf.length then .ok (false, buf)
  else do
    let (received, buf) ← readBodyLoop contentLen pieces 0 buf
    match received with
    | none => return (false, buf)
    | some received =>
      let buf ← receiveAt buf received [0#8]
      return (true, buf)

/-- The bytes received of a body of that length, unless they break off before its end. -/
def receivedOf (contentLen : Nat) (pieces : List (List Byte)) : Option (List Byte) :=
  if contentLen ≤ (bodyOf pieces).length then some ((bodyOf pieces).take contentLen) else none

section

variable {contentLen : Nat}

theorem cstr_terminated (s : List Byte) : cstr (s ++ [0#8]) = cstr s := by
  by_cases nul : 0#8 ∈ s
  · exact cstr_append_of_mem nul [0#8]
  · have free : NulFree s := fun b member zero => nul (zero ▸ member)
    rw [cstr_append free [], cstr_eq_self free]

theorem receiveAt_append {got rest bytes : List Byte} (fits : bytes.length ≤ rest.length) :
    receiveAt (got ++ rest) got.length bytes = .ok (got ++ bytes ++ rest.drop bytes.length) := by
  rw [receiveAt, if_pos (by rw [List.length_append]; omega), writeAt_append, List.append_assoc]

/-- The loop goes on with the body, up to its length, over what the buffer held. -/
theorem readBodyLoop_eq (pieces : List (List Byte)) {got rest : List Byte} (room : contentLen ≤ (got ++ rest).length)
    (short : got.length ≤ contentLen) : readBodyLoop contentLen pieces got.length (got ++ rest) =
      .ok (if contentLen ≤ got.length + (bodyOf pieces).length then some contentLen else none,
        got ++ (bodyOf pieces).take (contentLen - got.length) ++
          rest.drop ((bodyOf pieces).take (contentLen - got.length)).length) := by
  rw [List.length_append] at room
  induction pieces generalizing got rest with
  | nil =>
    rw [readBodyLoop, bodyOf_nil, List.take_nil, List.append_nil, List.length_nil, List.drop_zero, Nat.add_zero]
    by_cases more : got.length < contentLen
    · rw [if_pos more, if_neg (Nat.not_le.mpr more)]
    · rw [if_neg more, if_pos (Nat.not_lt.mp more), Nat.le_antisymm short (Nat.not_lt.mp more)]
  | cons piece pieces ih =>
    rw [readBodyLoop]
    by_cases more : got.length < contentLen
    · rw [if_pos more]
      by_cases broken : piece = []
      · subst broken
        dsimp only
        rw [List.take_nil, if_pos rfl, bodyOf_cons_nil, List.take_nil, List.append_nil, List.length_nil, List.drop_zero,
          Nat.add_zero, if_neg (Nat.not_le.mpr more)]
      · have some_read : piece.take (contentLen - got.length) ≠ [] := by
          rw [ne_eq, List.take_eq_nil_iff, not_or]
          exact ⟨by omega, broken⟩
        have read : (piece.take (contentLen - got.length)).length ≤ contentLen - got.length := List.length_take_le ..
        dsimp only
        rw [if_neg some_read, receiveAt_append (by omega)]
        simp only [bind, Except.bind]
        have next := @ih (got ++ piece.take (contentLen - got.length)) (rest.drop (piece.take (contentLen - got.length)).length)
          (by rw [List.length_append, List.length_drop]; omega) (by rw [List.length_append]; omega)
        rw [List.length_append] at next
        rw [next, bodyOf_cons broken]
        by_cases whole : piece.length ≤ contentLen - got.length
        · rw [List.take_of_length_le whole, List.take_append, List.take_of_length_le whole, List.length_append,
            List.length_append, List.drop_drop, Nat.add_assoc, Nat.sub_sub]
          simp only [List.append_assoc]
        · -- the piece has all that is missing of the body
          have missing : (piece.take (contentLen - got.length)).length = contentLen - got.length :=
            List.length_take_of_le (by omega)
          have all : contentLen - (got.length + (contentLen - got.length)) = 0 := by omega
          rw [missing, all, List.take_zero, List.append_nil, List.length_nil, List.drop_zero,
            List.take_append_of_le_length (by omega), missing, if_pos (by omega), if_pos (by rw [List.length_append]; omega)]
    · have full : got.length = contentLen := by omega
      rw [if_neg more, full, Nat.sub_self, List.take_zero, List.append_nil, List.length_nil, List.drop_zero,
        if_pos (by omega)]

/-- **A body is received in any pieces.** Whatever its length is said to be, however the network cuts it
up or breaks it off, and whatever the buffer held, `read_body` writes only into the buffer; it succeeds
exactly when the body as a whole would be read, and then the buffer holds it as a C string. -/
theorem received_in_any_pieces (contentLen : Nat) (pieces : List (List Byte)) (buf : List Byte) :
    ∃ buf', readBodyInto contentLen pieces buf = .ok ((readBody buf.length (receivedOf contentLen pieces)).isSome, buf') ∧
      buf'.length = buf.length ∧
      ∀ body, readBody buf.length (receivedOf contentLen pieces) = some body → bufString buf' = .ok (cstr body) := by
  have length_got (enough : contentLen ≤ (bodyOf pieces).length) : ((bodyOf pieces).take contentLen).length = contentLen :=
    List.length_take_of_le enough
  by_cases refused : contentLen = 0 ∨ contentLen ≥ buf.length
  · have unread : readBody buf.length (receivedOf contentLen pieces) = none := by
      rw [receivedOf]
      split
      · rename_i enough
        rw [readBody, length_got enough, if_pos refused]
      · rfl
    refine ⟨buf, ?_, rfl, fun body read => ?_⟩
    · rw [readBodyInto, if_pos refused, unread]
      rfl
    · rw [unread] at read
      cases read
  · obtain ⟨some_bytes, fits⟩ := not_or.mp refused
    have loop := @readBodyLoop_eq contentLen pieces [] buf (by simpa using (Nat.not_le.mp fits).le) (Nat.zero_le _)
    simp only [List.length_nil, List.nil_append, Nat.zero_add, Nat.sub_zero] at loop
    rw [readBodyInto, if_neg refused, loop]
    simp only [bind, Except.bind]
    by_cases enough : contentLen ≤ (bodyOf pieces).length
    · have read : readBody buf.length (receivedOf contentLen pieces) = some ((bodyOf pieces).take contentLen) := by
        rw [receivedOf, if_pos enough, readBody, length_got enough, if_neg refused]
      have length := length_got enough
      have last := @receiveAt_append ((bodyOf pieces).take contentLen) (buf.drop contentLen) [0#8]
        (by rw [List.length_drop, List.length_singleton]; omega)
      rw [length] at last
      rw [if_pos enough, read, length]
      dsimp only
      rw [last]
      refine ⟨_, rfl, ?_, fun body same => ?_⟩
      · simp only [List.length_append, List.length_drop, List.length_singleton, length]
        omega
      · cases same
        rw [bufString, if_pos (by simp), cstr_append_of_mem (by simp), cstr_terminated]
    · have unread : receivedOf contentLen pieces = none := if_neg enough
      rw [if_neg enough, unread]
      refine ⟨_, rfl, ?_, fun body read => by cases read⟩
      have got : ((bodyOf pieces).take contentLen).length ≤ contentLen := List.length_take_le ..
      rw [List.length_append, List.length_drop]
      omega

end

end EspAdblocker.Web
