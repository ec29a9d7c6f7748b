import EspAdblocker.Lib.Bytes

/-!
# Requests of the web UI

The part of `web_ui.c` every POST handler shares: the body (`readBody`), cJSON,
which is a parameter (`CJson`), and the reply to the browser.
-/

namespace EspAdblocker.Web

open EspAdblocker.Lib

/-- `read_body` into a buffer of `bufLen` bytes: `none` when the body is missing or too large or
a read fails, which is what `none` for the bytes received stands for. -/
def readBody (bufLen : Nat) (received : Option (List Byte)) : Option (List Byte) :=
  match received with
  | none => none
  | some body => if body.length = 0 ∨ body.length ≥ bufLen then none else some body

/-- cJSON on a body: whether `cJSON_Parse` accepts it, and the string an item of the object
holds, if there is such an item and it is a string. -/
structure CJson where
  parse : List Byte → Bool
  item : List Byte → String → Option (List Byte)
  /-- A `valuestring` is a C string, decoded from less than the whole body. -/
  item_free : ∀ {body key value}, item body key = some value → NulFree value
  item_length : ∀ {body key value}, item body key = some value → value.length < body.length

/-- What the browser is told. -/
inductive Response where
  | ok
  | error (message : String)
  deriving DecidableEq, Repr

theorem readBody_eq_some {bufLen : Nat} {received : Option (List Byte)} {body : List Byte}
    (read : readBody bufLen received = some body) : received = some body ∧ body.length < bufLen := by
  unfold readBody at read
  split at read
  · cases read
  · split at read
    · cases read
    · rename_i fits
      cases read
      exact ⟨rfl, by omega⟩

end EspAdblocker.Web
