import ManagementPlane.Json.Tree
import ManagementPlane.Text.Bytes

/-!
# Reading JSON from bytes

Bytes need not spell a text. A byte that belongs to no character is tolerated inside a string, as long as nobody wants to
know that string: it reads like half of a surrogate pair.

* `Tree.ofBytes?` : the tree of bytes;
* `Tree.ofBytes?_bytesOf` : of the bytes of a text it is the tree of the text.
-/

namespace ManagementPlane.Json

/-- Where a reader has come to: between the strings, into one of them, or behind a backslash in one. -/
inductive Whereabouts where
  | between
  | inside
  | escaping

/-- Escapes that denote no character, whatever comes before them or follows. -/
def noCharacter : List Char := "\\ud800\\ud800".toList

/-- What bytes spell, written as a text. A byte that belongs to no character becomes an escape that denotes none if it
is in a string. Anywhere else it becomes a NUL, which no text has there. -/
def legible : Whereabouts → List (Option Char) → List Char
  | _, [] => []
  | .inside, none :: r => noCharacter ++ legible .inside r
  | w, none :: r => '\x00' :: legible w r
  | .escaping, some c :: r => c :: legible .inside r
  | .inside, some c :: r =>
    c :: legible (if c = '"' then .between else if c = '\\' then .escaping else .inside) r
  | .between, some c :: r => c :: legible (if c = '"' then .inside else .between) r

@[simp]
theorem legible_map_some (w : Whereabouts) (cs : List Char) : legible w (cs.map some) = cs := by
  induction cs generalizing w with
  | nil => cases w <;> rfl
  | cons c r ih => cases w <;> rw [List.map_cons, legible, ih]

def Tree.ofBytes? (bytes : List UInt8) : Option Tree :=
  Tree.parse? (String.ofList (legible .between (Text.characters bytes)))

@[simp]
theorem Tree.ofBytes?_bytesOf (s : String) : Tree.ofBytes? (Text.bytesOf s) = Tree.parse? s := by
  simp [Tree.ofBytes?]

example : (Tree.ofBytes? [0x22, 0x61, 0xff, 0x22]).map Tree.text? = some none := by cbv

example : (Tree.ofBytes? [0x22, 0x5c, 0xff, 0x22]).isNone ∧ (Tree.ofBytes? [0xff]).isNone := by cbv

end ManagementPlane.Json
