/-
  ApiDocs.Text.Blank

  White space (property White_Space): the ASCII blanks, NEL, the no-break space and
  the spaces and separators of the general punctuation block.
-/

import ApiDocs.Text.Ranges

namespace ApiDocs.Text

/-- Code points with the property White_Space. -/
def blanks : Ranges where
  intervals := [
    (0x9, 0xD), (0x20, 0x20), (0x85, 0x85), (0xA0, 0xA0), (0x1680, 0x1680), (0x2000, 0x200A),
    (0x2028, 0x2029), (0x202F, 0x202F), (0x205F, 0x205F), (0x3000, 0x3000)]
  ascending := by decide +kernel

/-- The character is white space. -/
def isBlank (c : Char) : Bool :=
  blanks.contains c

end ApiDocs.Text
