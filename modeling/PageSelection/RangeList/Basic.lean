import PageSelection.Token.Basic

/-!
# Range lists

A range list writes down a selection of numbers: single numbers and pairs of bounds, separated by
commas. Reading one yields its **items** exactly as written, in the order of the text; what they
select together is a later question.

A text that is no range list is refused at one place for one reason, a `RangeList.Error`.
-/

namespace PageSelection

/-- Two bounds as written. They stand for the numbers from `low` to `high`, both included, and for
none at all when they are reversed. -/
structure Bounds where
  low : Int32
  high : Int32
  deriving DecidableEq, Repr

namespace Bounds

/-- The bounds of a single number. -/
def single (value : Int32) : Bounds := ⟨value, value⟩

/-- Whether the bounds are in the wrong order, and so stand for nothing. -/
def isReversed (bounds : Bounds) : Bool := bounds.high < bounds.low

instance : Membership Int32 Bounds := ⟨fun bounds x => bounds.low ≤ x ∧ x ≤ bounds.high⟩

theorem mem_iff {bounds : Bounds} {x : Int32} :
    x ∈ bounds ↔ bounds.low.toInt ≤ x.toInt ∧ x.toInt ≤ bounds.high.toInt := by
  rw [← Int32.le_iff_toInt_le, ← Int32.le_iff_toInt_le]
  exact Iff.rfl

@[simp] theorem mem_single {value x : Int32} : x ∈ single value ↔ x = value := by
  simp only [mem_iff, single, ← Int32.toInt_inj]
  omega

end Bounds

namespace RangeList

/-- One item of a list and the stretch of text from its first digit to its last. -/
structure Item where
  bounds : Bounds
  span : Span
  deriving DecidableEq, Repr

/-- What could have stood where something else was found. -/
inductive Expectation
  | number
  | commaOrEnd
  deriving DecidableEq, Repr

/-- The phrase for an expectation. -/
def Expectation.describe : Expectation → String
  | number => "a page number"
  | commaOrEnd => "',' or the end of the list"

/-- Why a text is no range list. -/
inductive Fault
  /-- A token of the wrong kind. -/
  | unexpected (expected : Expectation) (found : Token.Kind)
  /-- The text is over and a number is missing. -/
  | endOfText
  /-- A number beyond the range of 32-bit integers. -/
  | overflow
  deriving DecidableEq, Repr

/-- A fault in words. -/
def Fault.describe : Fault → String
  | unexpected expected found => "expected " ++ expected.describe ++ ", found " ++ found.describe
  | endOfText => "range list ends where a page number was expected"
  | overflow => "number does not fit in a 32-bit integer"

/-- A fault and the place where it shows: the offending token, or the end of the text. -/
structure Error where
  fault : Fault
  span : Span
  deriving DecidableEq, Repr

/-- An error in words, with its place. -/
def Error.message (e : Error) : String :=
  e.fault.describe ++ " at " ++ toString e.span.start ++ ".." ++ toString e.span.stop

end RangeList

end PageSelection
