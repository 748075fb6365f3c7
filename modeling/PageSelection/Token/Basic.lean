import PageSelection.Span
import PageSelection.Text.Quoted

/-!
# Tokens of a range list

A range list such as `1-4, 7` is made of numbers, of the separators `-` and `:` between the two
bounds of a range, and of commas between items. Any other character is a token of its own too, so
that whoever reads the list can say what it ran into.
-/

namespace PageSelection

/-- The two marks that may stand between the bounds of a range. -/
inductive Separator
  | hyphen
  | colon
  deriving DecidableEq, Repr

/-- The character of a separator. -/
def Separator.char : Separator → Char
  | hyphen => '-'
  | colon => ':'

namespace Token

/-- What a token is. -/
inductive Kind
  /-- A number, which is given by the span of its digits and not yet read. -/
  | number (digits : Span)
  | separator (mark : Separator)
  | comma
  /-- A character that range lists have no use for. -/
  | unexpected (c : Char)
  deriving DecidableEq, Repr

/-- How a message calls a token. -/
def Kind.describe : Kind → String
  | number _ => "number"
  | separator mark => "range separator '" ++ mark.char.toString ++ "'"
  | comma => "','"
  | unexpected c => "character " ++ Text.quote c

end Token

/-- A token and the stretch of text that it covers. -/
structure Token where
  kind : Token.Kind
  span : Span
  deriving DecidableEq, Repr

/-- The number with these digits, which covers them and nothing else. -/
abbrev Token.ofDigits (digits : Span) : Token := ⟨.number digits, digits⟩

end PageSelection
