import PageSelection.Search
import PageSelection.Span
import PageSelection.Text.Bytes

/-!
# Documents and their lines

A `Document` is a text with a name, and `Documents` is a collection that hands out an identifier
for each document added to it. Reports speak of places by byte offset; this module turns an offset
into the line and column that a person reads.

Lines end after each line feed, so a text has one line more than it has line feeds, and the last
line is empty if the text is, or if it ends in a line feed. Lines are indexed from zero and
numbered from one.
-/

namespace PageSelection

/-- A text with a name. -/
structure Document where
  name : String
  text : String
  deriving DecidableEq, Repr

namespace Document

/-- The offsets just past the line feeds of a text whose first character stands at `pos`. -/
def lineFeedEnds (pos : Nat) : List Char → List Nat
  | [] => []
  | c :: cs =>
    let next := pos + c.utf8Size
    if c = '\n' then next :: lineFeedEnds next cs else lineFeedEnds next cs

/-- The offsets at which the lines of a text start. -/
def lineStarts (text : List Char) : List Nat := 0 :: lineFeedEnds 0 text

/-- The offsets just past the characters of a text whose first character stands at `pos`. -/
def charEnds (pos : Nat) : List Char → List Nat
  | [] => []
  | c :: cs =>
    let next := pos + c.utf8Size
    next :: charEnds next cs

/-- Why a look-up failed. -/
inductive LookupError
  /-- The identifier belongs to no document. -/
  | noDocument
  /-- There is no line with the index `given`; the last one has the index `last`. -/
  | noLine (given last : Nat)
  deriving DecidableEq, Repr

/-- A failed look-up in words. -/
def LookupError.message : LookupError → String
  | noDocument => "file missing"
  | noLine given last =>
    "invalid line " ++ toString given ++ ", maximum line is " ++ toString last

/-- The index of the line to which a byte offset belongs. An offset past the end belongs to the
last line. -/
def lineIndex (d : Document) (offset : Nat) : Nat :=
  match Search.run (compare · offset) (lineStarts d.text.toList).toArray with
  | .found index => index
  | .missing index => index - 1

/-- The stretch of the line with the given index, its line feed included. -/
def lineSpan (d : Document) (index : Nat) : Except LookupError Span :=
  let text := d.text.toList
  let starts := lineStarts text
  match starts[index]? with
  | some start => return ⟨start, starts[index + 1]?.getD (Text.byteLength text)⟩
  | none => throw (.noLine index (starts.length - 1))

/-- A line number and a column number, both counted from one. -/
structure Location where
  line : Nat
  column : Nat
  deriving DecidableEq, Repr

/-- Where a byte offset is. The column is one more than the number of characters of the line that
end at the offset or before. -/
def location (d : Document) (offset : Nat) : Except LookupError Location := do
  let index := d.lineIndex offset
  let line ← d.lineSpan index
  let reached := min offset line.stop
  let passed := (charEnds 0 d.text.toList).countP fun stop => line.start < stop && stop ≤ reached
  return ⟨index + 1, passed + 1⟩

/-- Identifies a document of a collection. -/
structure Id where
  number : Nat
  deriving DecidableEq, Repr

/-- The identifier that no collection ever hands out. -/
def Id.none : Id := ⟨0⟩

end Document

/-- A growing collection of documents. -/
structure Documents where
  entries : Array Document
  deriving Repr

namespace Documents

/-- The collection without documents. -/
def empty : Documents := ⟨#[]⟩

/-- How many documents there are. -/
def size (ds : Documents) : Nat := ds.entries.size

/-- Adds a document, and tells by which identifier it can be found from now on. -/
def add (ds : Documents) (d : Document) : Document.Id × Documents :=
  (⟨ds.size + 1⟩, ⟨ds.entries.push d⟩)

/-- The document with the given identifier. -/
def get? (ds : Documents) (id : Document.Id) : Option Document :=
  if id.number = 0 then none else ds.entries[id.number - 1]?

/-- The document with the given identifier, or the error that there is none. -/
def find (ds : Documents) (id : Document.Id) : Except Document.LookupError Document :=
  match ds.get? id with
  | some d => return d
  | none => throw .noDocument

@[simp] theorem get?_none (ds : Documents) : ds.get? .none = none := by
  simp [get?, Document.Id.none]

/-- A document is found by the identifier that it was given. -/
theorem get?_add_self (ds : Documents) (d : Document) :
    (ds.add d).2.get? (ds.add d).1 = some d := by
  simp [get?, add, size]

end Documents

end PageSelection
