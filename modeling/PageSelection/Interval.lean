import PageSelection.Numeral
import PageSelection.RangeList.Basic

/-!
# Closed intervals

An `Interval` is a non-empty run of non-negative 32-bit integers, given by its two ends. Intervals
are what a selection is stored as, and this module holds all that concerns one of them, or two:

* its numbers: `contains`, `size`, `values`, `slice`;
* its text: `spell`, with one number for an interval of one, and both ends for any other;
* two of them: `gap` measures how far apart they are, `Before` says that at least one number lies
  between them, `hull` is the interval from the lower low to the higher high.

The ends are machine integers. Because they are not negative, the difference that `gap` takes can
never leave the range of a machine integer (`toInt_gap`).
-/

namespace PageSelection

/-- The larger of two machine integers is the larger of their values. -/
theorem toInt_max (a b : Int32) : (max a b).toInt = max a.toInt b.toInt := by
  simp only [max]
  grind [Int32.le_iff_toInt_le]

/-- The smaller of two machine integers is the smaller of their values. -/
theorem toInt_min (a b : Int32) : (min a b).toInt = min a.toInt b.toInt := by
  simp only [min]
  grind [Int32.le_iff_toInt_le]

/-- The numbers from `low` to `high`, both included. -/
structure Interval where
  low : Int32
  high : Int32
  nonneg : 0 ≤ low
  ordered : low ≤ high
  deriving DecidableEq, Repr

namespace Interval

theorem low_nonneg (i : Interval) : 0 ≤ i.low.toInt := by
  simpa [Int32.le_iff_toInt_le] using i.nonneg

theorem low_le_high (i : Interval) : i.low.toInt ≤ i.high.toInt :=
  Int32.le_iff_toInt_le.1 i.ordered

theorem high_le (i : Interval) : i.high.toInt ≤ 2147483647 := by
  have h := Int32.toInt_le i.high
  rw [Int32.toInt_maxValue] at h
  omega

/-- An interval is determined by its ends. -/
theorem ext_ends {i j : Interval} (hlow : i.low = j.low) (hhigh : i.high = j.high) : i = j := by
  cases i; cases j; cases hlow; cases hhigh; rfl

/-! ### The numbers of one interval -/

/-- The bounds of an interval. -/
def bounds (i : Interval) : Bounds := ⟨i.low, i.high⟩

instance : Membership Int32 Interval := ⟨fun i x => i.low ≤ x ∧ x ≤ i.high⟩

theorem mem_iff {i : Interval} {x : Int32} :
    x ∈ i ↔ i.low.toInt ≤ x.toInt ∧ x.toInt ≤ i.high.toInt := by
  rw [← Int32.le_iff_toInt_le, ← Int32.le_iff_toInt_le]
  exact Iff.rfl

@[simp] theorem mem_bounds {i : Interval} {x : Int32} : x ∈ i.bounds ↔ x ∈ i := Iff.rfl

/-- Whether a number lies in the interval. -/
def contains (i : Interval) (x : Int32) : Bool := i.low ≤ x && x ≤ i.high

/-- How many numbers the interval has. -/
def size (i : Interval) : Nat := (i.high.toInt - i.low.toInt).toNat + 1

/-- The number that stands `k` places above the low end. -/
def nth (i : Interval) (k : Nat) : Int32 := Int32.ofInt (i.low.toInt + k)

/-- All numbers of the interval, in ascending order. -/
def values (i : Interval) : List Int32 := (List.range i.size).map i.nth

/-- The first `limit` numbers after the first `skip` ones. No others are computed. -/
def slice (i : Interval) (skip limit : Nat) : List Int32 :=
  (List.range' skip (min limit (i.size - skip))).map i.nth

/-- The last `limit` numbers, in descending order. -/
def top (i : Interval) (limit : Nat) : List Int32 :=
  (List.range (min limit i.size)).map fun k => i.nth (i.size - 1 - k)

@[simp] theorem contains_iff {i : Interval} {x : Int32} : i.contains x = true ↔ x ∈ i := by
  rw [contains, Bool.and_eq_true, decide_eq_true_eq, decide_eq_true_eq]
  exact Iff.rfl

/-- No number of the interval is beyond the range of machine integers. -/
theorem toInt_nth {i : Interval} {k : Nat} (h : k < i.size) :
    (i.nth k).toInt = i.low.toInt + k := by
  have hlow := i.low_nonneg
  have hhigh := i.high_le
  have horder := i.low_le_high
  simp only [size] at h
  rw [nth, Int32.toInt_ofInt]
  exact Int.bmod_eq_of_le (by simp only [Int32.size]; omega) (by simp only [Int32.size]; omega)

/-- The values of an interval are its members. -/
@[simp] theorem mem_values {i : Interval} {x : Int32} : x ∈ i.values ↔ x ∈ i := by
  have horder := i.low_le_high
  rw [values, List.mem_map, mem_iff]
  constructor
  · rintro ⟨k, hk, rfl⟩
    have hlt := List.mem_range.1 hk
    rw [toInt_nth hlt]
    simp only [size] at hlt
    omega
  · rintro ⟨hlow, hhigh⟩
    have hlt : (x.toInt - i.low.toInt).toNat < i.size := by
      simp only [size]
      omega
    refine ⟨_, List.mem_range.2 hlt, ?_⟩
    rw [← Int32.toInt_inj, toInt_nth hlt]
    omega

/-- A slice is the stretch of the values that it stands for. -/
theorem slice_eq (i : Interval) (skip limit : Nat) :
    i.slice skip limit = (i.values.drop skip).take limit := by
  rw [slice, values, ← List.map_drop, ← List.map_take, List.range_eq_range', List.drop_range']
  congr 1
  apply List.ext_getElem <;> simp

/-! ### Text and order -/

/-- The text of an interval: its only number, or its two ends around a hyphen. -/
def spell (i : Interval) : List Char :=
  if i.low = i.high then Numeral.spell i.low.toInt
  else Numeral.spell i.low.toInt ++ '-' :: Numeral.spell i.high.toInt

instance : ToString Interval := ⟨fun i => String.ofList i.spell⟩

/-- Intervals are ordered by their low ends first and by their high ends second. -/
instance : Ord Interval := ⟨fun i j => (compare i.low j.low).then (compare i.high j.high)⟩

/-! ### Two intervals -/

/-- There is at least one number above `i` and below `j`. -/
def Before (i j : Interval) : Prop := i.high.toInt + 1 < j.low.toInt

instance (i j : Interval) : Decidable (i.Before j) := inferInstanceAs (Decidable (_ < _))

/-- The distance from the end of the lower interval to the beginning of the upper one. It is not
positive when they overlap, and one when they are adjacent. -/
def gap (i j : Interval) : Int32 := max i.low j.low - min i.high j.high

/-- Whether the union of two intervals is an interval again. -/
def touches (i j : Interval) : Bool := i.gap j ≤ 1

/-- The smallest interval that has all numbers of both. -/
def hull (i j : Interval) : Interval where
  low := min i.low j.low
  high := max i.high j.high
  nonneg := by
    have hi := i.low_nonneg
    have hj := j.low_nonneg
    rw [Int32.le_iff_toInt_le, toInt_min]
    exact Int.le_min.2 ⟨hi, hj⟩
  ordered := by
    have hi := i.low_le_high
    rw [Int32.le_iff_toInt_le, toInt_min, toInt_max]
    omega

@[simp] theorem toInt_low_hull (i j : Interval) :
    (i.hull j).low.toInt = min i.low.toInt j.low.toInt := toInt_min ..

@[simp] theorem toInt_high_hull (i j : Interval) :
    (i.hull j).high.toInt = max i.high.toInt j.high.toInt := toInt_max ..

/-- The gap is computed without overflow. -/
theorem toInt_gap (i j : Interval) :
    (i.gap j).toInt = max i.low.toInt j.low.toInt - min i.high.toInt j.high.toInt := by
  have hi := i.low_nonneg
  have hj := j.low_nonneg
  have hi' := i.low_le_high
  have hj' := j.low_le_high
  have hi'' := i.high_le
  have hj'' := j.high_le
  rw [gap, Int32.toInt_sub, toInt_max, toInt_min]
  exact Int.bmod_eq_of_le (by omega) (by omega)

/-- Two intervals touch unless one of them lies before the other. -/
theorem touches_iff (i j : Interval) : i.touches j = true ↔ ¬ i.Before j ∧ ¬ j.Before i := by
  have hi := i.low_le_high
  have hj := j.low_le_high
  have hone : (1 : Int32).toInt = 1 := by decide
  simp only [touches, decide_eq_true_eq, Int32.le_iff_toInt_le, toInt_gap, hone, Before]
  omega

/-- The hull of two intervals that touch has no numbers besides theirs. -/
theorem mem_hull {i j : Interval} (h : i.touches j = true) {x : Int32} :
    x ∈ i.hull j ↔ x ∈ i ∨ x ∈ j := by
  have hi := i.low_le_high
  have hj := j.low_le_high
  rw [touches_iff] at h
  simp only [mem_iff, toInt_low_hull, toInt_high_hull, Before] at *
  omega

theorem Before.trans {i j k : Interval} (hij : i.Before j) (hjk : j.Before k) : i.Before k := by
  have hj := j.low_le_high
  simp only [Before] at *
  omega

end Interval

end PageSelection
