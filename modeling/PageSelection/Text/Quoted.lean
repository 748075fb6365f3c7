import PageSelection.Text.Graphic

/-!
# Quoted characters

How a message shows one character: between single quotes, with an escape wherever the character
itself would be invisible or would be taken for part of the quoting. The escape of a character
that has none of its own is its code point in braces, in lower-case hexadecimal digits.
-/

namespace PageSelection.Text

/-- The code point of a character in braces, after a backslash and a `u`. -/
def codePointEscape (c : Char) : List Char :=
  ['\\', 'u', '\x7b'] ++ Nat.toDigits 16 c.toNat ++ ['\x7d']

/-- The spelling of a character inside single quotes. -/
def escape (c : Char) : List Char :=
  match c with
  | '\x00' => ['\\', '0']
  | '\t' => ['\\', 't']
  | '\n' => ['\\', 'n']
  | '\r' => ['\\', 'r']
  | '\x27' => ['\\', '\x27']
  | '\\' => ['\\', '\\']
  | c => if isGraphic c then [c] else codePointEscape c

/-- A character in single quotes. -/
def quote (c : Char) : String := String.ofList (['\x27'] ++ escape c ++ ['\x27'])

end PageSelection.Text
