import PageSelection.Text.CodeRanges

/-!
# Blank characters

The characters with the Unicode property `White_Space`. They may stand between any two tokens of
a range list, and a line of nothing else counts as empty.
-/

namespace PageSelection.Text

/-- The code points with the property `White_Space`. -/
def whiteSpace : CodeRanges :=
  [(0x09, 0x0D), (0x20, 0x20), (0x85, 0x85), (0xA0, 0xA0), (0x1680, 0x1680), (0x2000, 0x200A),
   (0x2028, 0x2029), (0x202F, 0x202F), (0x205F, 0x205F), (0x3000, 0x3000)]

/-- Whether a character is white space. -/
def isBlank (c : Char) : Bool := whiteSpace.contains c

end PageSelection.Text
