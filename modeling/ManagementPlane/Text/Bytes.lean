/-!
# Texts in bytes

A text is stored in UTF-8. Bytes that somebody else has stored need not be those of a text.

* `bytesOf` : the bytes of a text;
* `characters` : what bytes spell, byte for byte where they spell nothing;
* `characters_bytesOf`, `ofBytes?_bytesOf` : the bytes of a text spell that text.
-/

namespace ManagementPlane.Text

def bytesOf (s : String) : List UInt8 := s.toList.flatMap String.utf8EncodeChar

/-- The characters that bytes spell, from the left. A byte where no character starts stands as `none`. -/
def characters : List UInt8 → List (Option Char)
  | [] => []
  | b :: r =>
    match ((b :: r).take 4).toByteArray.utf8DecodeChar? 0 with
    | some c => some c :: characters (r.drop (c.utf8Size - 1))
    | none => none :: characters r
termination_by bytes => bytes.length

/-- The text that bytes spell, if they spell one. -/
def ofBytes? (bytes : List UInt8) : Option String :=
  ((characters bytes).mapM id).map String.ofList

theorem characters_append (c : Char) (r : List UInt8) :
    characters (String.utf8EncodeChar c ++ r) = some c :: characters r := by
  have hsize : (String.utf8EncodeChar c).length ≤ 4 := by simpa using c.utf8Size_le_four
  have hpos : 0 < (String.utf8EncodeChar c).length := by simpa using c.utf8Size_pos
  have hdecode : (((String.utf8EncodeChar c ++ r).take 4).toByteArray.utf8DecodeChar? 0) = some c := by
    rw [List.take_append, List.take_of_length_le hsize, List.toByteArray_append]
    exact ByteArray.utf8DecodeChar?_utf8EncodeChar_append
  obtain ⟨b, tail, hcons⟩ := List.exists_cons_of_length_pos hpos
  have htail : tail.length = c.utf8Size - 1 := by
    have := congrArg List.length hcons
    simp only [String.length_utf8EncodeChar, List.length_cons] at this
    omega
  rw [hcons, List.cons_append] at hdecode ⊢
  rw [characters, hdecode]
  simp only [← htail, List.drop_left]

@[simp]
theorem characters_bytesOf (s : String) : characters (bytesOf s) = s.toList.map some := by
  unfold bytesOf
  induction s.toList with
  | nil => simp [characters]
  | cons c r ih => rw [List.flatMap_cons, characters_append, ih, List.map_cons]

@[simp]
theorem ofBytes?_bytesOf (s : String) : ofBytes? (bytesOf s) = some s := by
  have hall : ∀ cs : List Char, (cs.map some).mapM id = some cs := by
    intro cs
    induction cs with
    | nil => rfl
    | cons c r ih => simp [ih]
  rw [ofBytes?, characters_bytesOf, hall, Option.map_some, String.ofList_toList]

end ManagementPlane.Text
