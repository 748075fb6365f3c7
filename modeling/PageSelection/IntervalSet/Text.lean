import PageSelection.IntervalSet.Insert
import PageSelection.RangeList.Parser

/-!
# The text of a set

A set is written as the list of its intervals in ascending order, separated by commas; the empty
set is the empty text. In the other direction, every range list denotes a set, in whatever order
and however often its numbers are written.
-/

namespace PageSelection.IntervalSet

/-- The range list of a set. -/
def spell (s : IntervalSet) : List Char := [','].intercalate (s.intervals.map Interval.spell)

instance : ToString IntervalSet := ⟨fun s => String.ofList s.spell⟩

/-- The set of all numbers of some items. -/
def ofItems (items : List RangeList.Item) : Except Error IntervalSet :=
  ofMembers (items.map (·.bounds.member))

/-- The set of all numbers of a range list. -/
def ofText (text : String) : Except Error IntervalSet := do
  let items ← (RangeList.parse text).mapError .malformed
  ofItems items

end PageSelection.IntervalSet
