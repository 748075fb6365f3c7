import PageSelection.RangeList.Basic

/-!
# Members

A set is built from members: single numbers, and the bounds of ranges. Whichever it is, all that
the construction asks for are the bounds of a member. Those of a single number are that number
twice, and those of a range are taken as they are given, reversed or not.

Bounds that stand somewhere else already, in an item of a text or as the ends of an interval, are a
range (`Bounds.member`).
-/

namespace PageSelection

/-- What a set is built from, one at a time. -/
inductive Member
  /-- A single number. -/
  | single (value : Int32)
  /-- The numbers from `low` to `high`, of which there are none when these are reversed. -/
  | range (low high : Int32)
  deriving DecidableEq, Repr

/-- The bounds of a member. -/
def Member.bounds : Member → Bounds
  | single value => .single value
  | range low high => ⟨low, high⟩

@[simp] theorem Member.bounds_single (value : Int32) :
    (Member.single value).bounds = .single value := rfl

/-- The range between two bounds. -/
def Bounds.member (bounds : Bounds) : Member := .range bounds.low bounds.high

@[simp] theorem Bounds.bounds_member (bounds : Bounds) : bounds.member.bounds = bounds := rfl

end PageSelection
