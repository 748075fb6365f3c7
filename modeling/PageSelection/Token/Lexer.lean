import PageSelection.Text.Blank
import PageSelection.Token.Basic

/-!
# From characters to tokens

Each character belongs to exactly one `CharClass`, and its class alone decides what becomes of it.
Digits that stand side by side make one number; blanks make no token, but end a number; every
other character is a token by itself.

`Token.scan` goes through a text once, from left to right. Next to the position it carries the
offset at which the current run of digits began, if it is inside one, and emits the number when
the run ends.
-/

namespace PageSelection

/-- What a character means in a range list. -/
inductive CharClass
  | digit
  | blank
  | separator (mark : Separator)
  | comma
  | other
  deriving DecidableEq, Repr

/-- The class of a character. Only the ten digits of ASCII count as digits. -/
def CharClass.of (c : Char) : CharClass :=
  if c.isDigit then .digit
  else if Text.isBlank c then .blank
  else match c with
    | '-' => .separator .hyphen
    | ':' => .separator .colon
    | ',' => .comma
    | _ => .other

namespace Token

/-- The number whose digits began at `run` and have just ended, if there is such a run. -/
def flush (run : Option Nat) (pos : Nat) : List Token :=
  match run with
  | none => []
  | some start => [.ofDigits ⟨start, pos⟩]

/-- The tokens of a text whose first character stands at byte `pos`. If a run of digits ends right
before it, `run` is the offset at which that run began. -/
def scan (run : Option Nat) (pos : Nat) : List Char → List Token
  | [] => flush run pos
  | c :: cs =>
    let next := pos + c.utf8Size
    match CharClass.of c with
    | .digit => scan (some (run.getD pos)) next cs
    | .blank => flush run pos ++ scan none next cs
    | .separator mark => flush run pos ++ ⟨.separator mark, ⟨pos, next⟩⟩ :: scan none next cs
    | .comma => flush run pos ++ ⟨.comma, ⟨pos, next⟩⟩ :: scan none next cs
    | .other => flush run pos ++ ⟨.unexpected c, ⟨pos, next⟩⟩ :: scan none next cs

/-- The tokens of a text, in order. -/
def ofText (text : String) : List Token := scan none 0 text.toList

end Token

end PageSelection
