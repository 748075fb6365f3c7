import PageSelection.Interval

/-!
# Sets of numbers

An `IntervalSet` is a finite set of non-negative 32-bit integers, stored as the intervals that it
consists of. Neighbouring intervals are separated by at least one missing number, so a set has
only one such form, and equal sets are stored alike.

The intervals are kept with the highest one first. Lists of ranges are mostly written in ascending
order, and then each new range belongs right at the front. Readers ask for `intervals`, which is
the ascending order.
-/

namespace PageSelection

/-- A finite set of non-negative 32-bit integers. -/
structure IntervalSet where
  /-- The intervals of the set, the highest first. -/
  descending : List Interval
  /-- Each interval lies before all those that are stored in front of it. -/
  separated : descending.Pairwise fun upper lower => lower.Before upper
  deriving Repr

namespace IntervalSet

instance : DecidableEq IntervalSet := fun s t =>
  decidable_of_iff (s.descending = t.descending)
    ⟨fun h => by cases s; cases t; cases h; rfl, fun h => h ▸ rfl⟩

/-- The set without any numbers. -/
def empty : IntervalSet := ⟨[], .nil⟩

/-- The intervals of a set in ascending order. -/
def intervals (s : IntervalSet) : List Interval := s.descending.reverse

/-- Whether the set has no numbers. -/
def isEmpty (s : IntervalSet) : Bool := s.descending.isEmpty

instance : Membership Int32 IntervalSet := ⟨fun s x => ∃ i ∈ s.intervals, x ∈ i⟩

theorem mem_iff {s : IntervalSet} {x : Int32} : x ∈ s ↔ ∃ i ∈ s.intervals, x ∈ i := Iff.rfl

theorem mem_iff_descending {s : IntervalSet} {x : Int32} :
    x ∈ s ↔ ∃ i ∈ s.descending, x ∈ i := by
  simp [mem_iff, intervals]

theorem not_mem_empty {x : Int32} : x ∉ empty := by
  simp [mem_iff_descending, empty]

theorem pairwise_intervals (s : IntervalSet) : s.intervals.Pairwise Interval.Before := by
  simpa [intervals, List.pairwise_reverse] using s.separated

/-- Sets with the same intervals are equal. -/
theorem ext_intervals {s t : IntervalSet} (h : s.intervals = t.intervals) : s = t := by
  have hdesc : s.descending = t.descending := by
    simpa [intervals] using h
  cases s; cases t; cases hdesc; rfl

/-- Why a set could not be built. -/
inductive Error
  /-- Bounds that are in order, but begin below zero. -/
  | negative (bounds : Bounds)
  /-- The row with this index has neither one element nor two, but `length`. -/
  | rowLength (index length : Nat)
  /-- The text is no range list. -/
  | malformed (error : RangeList.Error)
  deriving DecidableEq, Repr

/-- An error in words. -/
def Error.message : Error → String
  | negative bounds =>
    "member " ++ String.ofList (Numeral.spell bounds.low.toInt) ++ "-" ++
      String.ofList (Numeral.spell bounds.high.toInt) ++ " is negative, members must be >= 0"
  | rowLength index length =>
    "member " ++ toString index ++ " has " ++ toString length ++ " elements, expected 1 or 2"
  | malformed error => error.message

end IntervalSet

end PageSelection
