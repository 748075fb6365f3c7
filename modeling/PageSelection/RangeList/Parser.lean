import PageSelection.Numeral
import PageSelection.RangeList.Basic
import PageSelection.Token.Lexer

/-!
# Reading range lists

A list is read token by token. What may come next depends only on how the text ends so far, and
that is a `Phase`: nothing yet, a comma, a lone number, a number and a separator, or a full range.
`Phase.advance` takes one token and tells which item it completes, if any; `Phase.finish` takes
the end of the text. `parse` runs them over the tokens of a text.

The first fault in the text is the one that is reported, since nothing is read beyond it.
-/

namespace PageSelection.RangeList

/-- How the part of a list that has been read ends. -/
inductive Phase
  /-- Nothing has been read. -/
  | start
  /-- After a comma, which another item has to follow. -/
  | comma
  /-- After a number that is an item by itself, unless a separator makes it a lower bound. -/
  | number (item : Item)
  /-- After a number and a separator, which the upper bound has to follow. -/
  | separator (low : Item)
  /-- After both bounds of a range. -/
  | range (item : Item)
  deriving DecidableEq, Repr

namespace Phase

/-- The value of the digits of a number token, which has the span `span` itself. -/
def value (text : List Char) (digits span : Span) : Except Error Int32 :=
  match Numeral.value? text digits with
  | some value => .ok value
  | none => .error ⟨.overflow, span⟩

/-- Takes one token. The result is the item that the token completes, if it completes one, and
how the text ends now. -/
def advance (text : List Char) (phase : Phase) (token : Token) :
    Except Error (Option Item × Phase) :=
  match phase, token.kind with
  | start, .number digits | comma, .number digits => do
    let value ← value text digits token.span
    return (none, number ⟨.single value, token.span⟩)
  | number low, .separator _ => return (none, separator low)
  | separator low, .number digits => do
    let high ← value text digits token.span
    return (none, range ⟨⟨low.bounds.low, high⟩, low.span.join token.span⟩)
  | number item, .comma | range item, .comma => return (some item, comma)
  | start, found | comma, found | separator _, found =>
    throw ⟨.unexpected .number found, token.span⟩
  | number _, found | range _, found => throw ⟨.unexpected .commaOrEnd found, token.span⟩

/-- Takes the end of the text. The result is the item that it completes, if it completes one. -/
def finish (text : List Char) : Phase → Except Error (Option Item)
  | start => return none
  | number item | range item => return some item
  | comma | separator _ => throw ⟨.endOfText, .point (Text.byteLength text)⟩

/-- The items that the remaining tokens complete. -/
def run (text : List Char) (phase : Phase) : List Token → Except Error (List Item)
  | [] => do
    let item ← phase.finish text
    return item.toList
  | token :: tokens => do
    let (item, next) ← phase.advance text token
    let items ← run text next tokens
    return item.toList ++ items

end Phase

/-- The items of a range list, in the order in which they are written. A text without any token is
the empty list. -/
def parse (text : String) : Except Error (List Item) :=
  Phase.start.run text.toList (Token.ofText text)

end PageSelection.RangeList
