import PageSelection.Attribute
import PageSelection.IntervalSet.Query
import PageSelection.IntervalSet.Text

/-!
# Selections of pages

A `Selection` says which pages of a document to print. It is a set of numbers with at least one
member, and all its members are at least 1, for pages are numbered from there.

A selection can be made from members, from the rows of a table, from the text of a range list,
from one page, or from two bounds. Reversed bounds among members or in a text select nothing,
just as in a set; `ofRange`, whose two bounds are all it has, refuses them.
-/

namespace PageSelection

/-- The pages of a document to print. -/
structure Selection where
  /-- The set of the pages. -/
  pages : IntervalSet
  /-- At least one page is selected. -/
  nonempty : pages.intervals ≠ []
  /-- Pages are numbered from 1. -/
  positive : ∀ i ∈ pages.intervals, 1 ≤ i.low
  deriving DecidableEq, Repr

namespace Selection

instance : ToString Selection := ⟨fun s => toString s.pages⟩

instance : PrintAttribute Selection := ⟨fun _ => .pageRanges⟩

/-- Why no selection could be made. -/
inductive Error
  /-- The named argument was not given at all. -/
  | absent (argument : String)
  /-- No page is selected. -/
  | empty
  /-- A selected page is below 1. If it comes from a text, `span` is the item that selects it. -/
  | pageBelowOne (page : Int32) (span : Option Span)
  /-- The two bounds of a range are reversed. -/
  | reversed (bounds : Bounds)
  /-- The members do not even make up a set. -/
  | set (error : IntervalSet.Error)
  deriving DecidableEq, Repr

/-- An error in words. -/
def Error.message : Error → String
  | absent argument => argument ++ " is absent"
  | empty => "page ranges must select at least one page"
  | pageBelowOne page _ =>
    "page value " ++ String.ofList (Numeral.spell page.toInt) ++ " < 1 specified"
  | reversed bounds =>
    "null range " ++ String.ofList (Numeral.spell bounds.low.toInt) ++ "-" ++
      String.ofList (Numeral.spell bounds.high.toInt) ++ " specified"
  | set error => error.message

/-- The two broad classes of errors. -/
inductive ErrorClass
  /-- Something required was not given. -/
  | missingInput
  /-- Something was given that describes no selection. -/
  | invalidInput
  deriving DecidableEq, Repr

/-- The class of an error. -/
def Error.errorClass : Error → ErrorClass
  | absent _ => .missingInput
  | _ => .invalidInput

/-- The selection of all numbers of a set. -/
def ofSet (pages : IntervalSet) : Except Error Selection :=
  if nonempty : pages.intervals = [] then
    throw .empty
  else
    match below : pages.intervals.find? (·.low < 1) with
    | some i => throw (.pageBelowOne i.low none)
    | none => return ⟨pages, nonempty, fun i hi => by
        have hnot := List.find?_eq_none.1 below i hi
        rw [decide_eq_true_eq, Int32.not_lt] at hnot
        exact hnot⟩

/-- The selection of all pages of the given members. -/
def ofMembers (members : List Member) : Except Error Selection := do
  let pages ← (IntervalSet.ofMembers members).mapError .set
  ofSet pages

/-- The selection of all pages of a table, each of whose rows is a page or a pair of bounds. -/
def ofRows (rows : List (List Int32)) : Except Error Selection := do
  let pages ← (IntervalSet.ofRows rows).mapError .set
  ofSet pages

/-- Adds to the error of a page below 1 the first item that selects this page. -/
def Error.locate (items : List RangeList.Item) : Error → Error
  | pageBelowOne page none =>
    pageBelowOne page <|
      (items.find? fun item => item.bounds.low == page && !item.bounds.isReversed).map (·.span)
  | error => error

/-- The selection that a range list describes. -/
def ofText (text : String) : Except Error Selection := do
  let items ← (RangeList.parse text).mapError fun error => .set (.malformed error)
  let pages ← (IntervalSet.ofItems items).mapError .set
  (ofSet pages).mapError (Error.locate items)

/-- The selection of a single page. -/
def ofPage (page : Int32) : Except Error Selection :=
  if page < 1 then throw (.pageBelowOne page none) else ofMembers [.single page]

/-- The selection of the pages between two bounds, both included. -/
def ofRange (bounds : Bounds) : Except Error Selection :=
  if bounds.isReversed then throw (.reversed bounds)
  else if bounds.low < 1 then throw (.pageBelowOne bounds.low none)
  else ofMembers [bounds.member]

/-- The members of an argument that may be missing. -/
def required {α : Type} (members : Option α) : Except Error α :=
  match members with
  | some members => return members
  | none => throw (.absent "members")

/-- The first page to print. -/
def firstPage (s : Selection) : Int32 := (s.pages.intervals.head s.nonempty).low

/-- The last page to print. -/
def lastPage (s : Selection) : Int32 := (s.pages.intervals.getLast s.nonempty).high

end Selection

end PageSelection
