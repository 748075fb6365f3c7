import PageSelection.IntervalSet.Basic
import PageSelection.Search

/-!
# Questions about a set

`toList` lists the numbers of a set in ascending order, and it is what every other question is
about: `contains` looks for a number in it, `next?` finds the first of its numbers above a given
one, `first?` and `last?` are its ends, `size` is its length, and `slice` is a stretch of it. All
of these are answered from the intervals, without going through the numbers one by one, for a set
may hold two thousand million of them.
-/

namespace PageSelection.IntervalSet

/-- All numbers of the set in ascending order. -/
def toList (s : IntervalSet) : List Int32 := s.intervals.flatMap Interval.values

@[simp] theorem mem_toList {s : IntervalSet} {x : Int32} : x ∈ s.toList ↔ x ∈ s := by
  simp [toList, mem_iff]

/-- How many numbers the set has. -/
def size (s : IntervalSet) : Nat := s.intervals.foldr (fun i rest => i.size + rest) 0

/-- Where an interval lies, seen from a number: below it, around it, or above it. -/
def position (x : Int32) (i : Interval) : Ordering :=
  if i.high < x then .lt else if x < i.low then .gt else .eq

/-- Whether a number is in the set. The intervals are searched by halving. -/
def contains (s : IntervalSet) (x : Int32) : Bool :=
  (Search.run (position x) s.intervals.toArray).isFound

/-- The least number of the set above `x`. -/
def next? (s : IntervalSet) (x : Int32) : Option Int32 :=
  s.intervals.findSome? fun i =>
    if x < i.low then some i.low
    else if x < i.high then some (x + 1)
    else none

/-- The least number of the set. -/
def first? (s : IntervalSet) : Option Int32 := s.intervals.head?.map Interval.low

/-- The greatest number of the set. -/
def last? (s : IntervalSet) : Option Int32 := s.intervals.getLast?.map Interval.high

/-- The first `limit` numbers of some intervals after the first `skip` ones. -/
def sliceOf : List Interval → Nat → Nat → List Int32
  | [], _, _ => []
  | i :: rest, skip, limit =>
    i.slice skip limit ++ sliceOf rest (skip - i.size) (limit - (i.size - skip))

/-- The first `limit` numbers of the set after the first `skip` ones. -/
def slice (s : IntervalSet) (skip limit : Nat) : List Int32 := sliceOf s.intervals skip limit

/-- At most `limit` answers of `next?`, each asked for the answer before, and the first for `x`.
A missing answer is the last one. -/
def walk (s : IntervalSet) (x : Int32) : Nat → List (Option Int32)
  | 0 => []
  | limit + 1 =>
    match s.next? x with
    | none => [none]
    | some y => some y :: s.walk y limit

end PageSelection.IntervalSet
