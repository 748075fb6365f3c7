import PageSelection.Diagnostic.Basic

/-!
# Diagnostics as text

The plain form of a diagnostic, for a terminal without colours:

```text
error: malformed page range list
  ┌─ <arg 1>:1:4
  │
1 │ 1-4;7
  │    ^ expected ',' or the end of the list
  │
  = expected ',' or the end of the list, found character ';'

```

Each label shows the line on which it starts and underlines its part of that line. A label always
gets at least one mark, and there is a column for it just past the end of the line. The gutter is
as wide as the line number.

This form is a simple one. Of a label that goes on over several lines only the first line is shown,
a tab is shown as it is, and every character is taken to be one column wide.
-/

namespace PageSelection.Diagnostic

/-- The mark under a labelled character. -/
def Role.mark : Role → Char
  | primary => '^'
  | secondary => '-'

/-- Whether a character ends a line, and is left out when the line is shown. -/
def isLineEnd (c : Char) : Bool := c == '\n' || c == '\r' || c == '\x00'

/-- A line as it is shown, without the characters that end it. -/
def shownLine (line : List Char) : List Char := (line.reverse.dropWhile isLineEnd).reverse

/-- Whether two spans have a byte in common. -/
def overlap (a b : Span) : Bool := max a.start b.start < min a.stop b.stop

/-- What stands under one column of the line: a mark where the target is, a blank before its end,
and nothing after it. -/
def underlineColumn (mark : Char) (target column : Span) : List Char :=
  if overlap target column then [mark]
  else if column.start < target.stop then [' ']
  else []

/-- What stands under the part of a line that starts at `pos`, and under the column past its
end. -/
def underline (mark : Char) (target : Span) (pos : Nat) : List Char → List Char
  | [] => underlineColumn mark target ⟨pos, pos + 1⟩
  | c :: cs =>
    let next := pos + c.utf8Size
    underlineColumn mark target ⟨pos, next⟩ ++ underline mark target next cs

/-- A label with the document, the place and the line that it points at. -/
structure Excerpt where
  label : Label
  document : Document
  location : Document.Location
  line : Span

/-- Looks up what a label points at. -/
def Label.excerpt (documents : Documents) (label : Label) :
    Except Document.LookupError Excerpt := do
  let document ← documents.find label.document
  let location ← document.location label.span.start
  let line ← document.lineSpan (document.lineIndex label.span.start)
  return ⟨label, document, location, line⟩

/-- The number of the line that an excerpt shows, as text. -/
def Excerpt.lineNumber (e : Excerpt) : String := toString e.location.line

/-- The lines of an excerpt, in a gutter of the given width. -/
def Excerpt.lines (width : Nat) (e : Excerpt) : List String :=
  let blank := String.ofList (List.replicate width ' ')
  let number := String.ofList (List.replicate (width - e.lineNumber.length) ' ') ++ e.lineNumber
  let source := (Text.slice? e.document.text.toList e.line.start e.line.stop).getD []
  let shown := shownLine source
  let start := e.label.span.start - e.line.start
  let target : Span := ⟨start, max (e.label.span.stop - e.line.start) (start + 1)⟩
  let marks := String.ofList (underline e.label.role.mark target 0 shown)
  let words := if e.label.message.isEmpty then "" else " " ++ e.label.message
  [blank ++ " ┌─ " ++ e.document.name ++ ":" ++ e.lineNumber ++ ":" ++ toString e.location.column,
   blank ++ " │",
   number ++ " │ " ++ String.ofList shown,
   blank ++ " │ " ++ marks ++ words]

/-- The text of a diagnostic. It fails only if a label points at no place of the documents. -/
def render (documents : Documents) (d : Diagnostic) : Except Document.LookupError String := do
  let excerpts ← d.labels.mapM (·.excerpt documents)
  let width := excerpts.foldl (fun width e => max width e.lineNumber.length) 0
  let blank := String.ofList (List.replicate width ' ')
  let heading := d.severity.word ++ ": " ++ d.message
  let notes := d.notes.map fun note => blank ++ " = " ++ note
  let separator := if d.notes.isEmpty then [] else [blank ++ " │"]
  let lines := heading :: excerpts.flatMap (·.lines width) ++ separator ++ notes ++ [""]
  return String.join (lines.map (· ++ "\n"))

end PageSelection.Diagnostic
