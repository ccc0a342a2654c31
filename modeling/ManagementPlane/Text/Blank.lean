/-!
# Blank characters

* `isBlank` : the characters that separate words, of any script;
* `trimStart`, `isBlankText` : text without the blanks at its start, and whether nothing is left.
-/

namespace ManagementPlane.Text

/-- Whether a character is white space in the sense of the Unicode standard. -/
def isBlank (c : Char) : Bool :=
  let n := c.toNat
  (0x9 ≤ n && n ≤ 0xd) || n == 0x20 || n == 0x85 || n == 0xa0 || n == 0x1680
    || (0x2000 ≤ n && n ≤ 0x200a) || n == 0x2028 || n == 0x2029 || n == 0x202f || n == 0x205f
    || n == 0x3000

def trimStart (cs : List Char) : List Char := cs.dropWhile isBlank

def isBlankText (s : String) : Bool := s.toList.all isBlank

end ManagementPlane.Text
