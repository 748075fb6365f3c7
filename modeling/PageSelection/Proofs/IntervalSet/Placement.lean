import PageSelection.IntervalSet.Insert

/-!
# Where a new interval goes

A new interval divides the intervals of a set into three groups: those `below` it and those `above`
it, from which it is separated by at least one number, and those `touching` it. The walk that puts
it into the set keeps the first two groups as they are, in their order, and puts in their midst one
interval that spans the third group and the new interval (`place_eq`).

The walk starts at the highest interval and does not look at the groups beforehand. It meets the
intervals above first, then those that touch, and stops at the first one below. When it has merged
an interval, the new one has grown; but what lies further down is separated from the interval that
was merged, and so it is grouped by the grown interval as it was by the new one (`before_hull_iff`,
`not_hull_before`).

`insert_splits` says the same of sets and bounds, in terms of integers.
-/

namespace PageSelection

namespace Interval

/-! ### Three groups -/

/-- The intervals that lie before the new one. -/
def below (new : Interval) (is : List Interval) : List Interval :=
  is.filter fun i => i.Before new

/-- The intervals that the new one lies before. -/
def above (new : Interval) (is : List Interval) : List Interval :=
  is.filter fun i => new.Before i

/-- The intervals that are neither below the new one nor above it. -/
def touching (new : Interval) (is : List Interval) : List Interval :=
  is.filter fun i => ¬ i.Before new ∧ ¬ new.Before i

variable {new top i : Interval} {rest : List Interval}

/-- What lies before an interval does not lie behind it. -/
theorem Before.not_before (h : i.Before top) : ¬ top.Before i := by
  have hi := i.low_le_high
  have htop := top.low_le_high
  simp only [Before] at *
  omega

/-! ### The groups of a grown interval -/

/-- Below an interval that is merged, the same intervals lie before the grown interval as before the
new one. -/
theorem before_hull_iff (h : i.Before top) : i.Before (top.hull new) ↔ i.Before new := by
  simp only [Before, toInt_low_hull] at *
  omega

/-- Below an interval that is merged, nothing lies behind the grown interval. -/
theorem not_hull_before (h : i.Before top) : ¬ (top.hull new).Before i := by
  have hi := i.low_le_high
  have htop := top.low_le_high
  simp only [Before, toInt_high_hull] at *
  omega

/-- Below an interval that touches the new one, nothing lies behind the new one. -/
theorem not_before_of_touches (h : i.Before top) (htouch : top.touches new = true) :
    ¬ new.Before i := by
  intro hnew
  exact ((touches_iff top new).mp htouch).2 (hnew.trans h)

/-- **Growing changes no group.** Below an interval that touches the new one, the intervals are
grouped by the hull of the two as they are by the new one. -/
theorem groups_hull (hrest : ∀ i ∈ rest, i.Before top) (htouch : top.touches new = true) :
    below (top.hull new) rest = below new rest ∧ above (top.hull new) rest = above new rest ∧
      touching (top.hull new) rest = touching new rest := by
  refine ⟨List.filter_congr fun i hi => ?_, List.filter_congr fun i hi => ?_,
    List.filter_congr fun i hi => ?_⟩
  · simp only [before_hull_iff (hrest i hi)]
  · simp only [not_hull_before (hrest i hi), not_before_of_touches (hrest i hi) htouch]
  · simp only [before_hull_iff (hrest i hi), not_hull_before (hrest i hi),
      not_before_of_touches (hrest i hi) htouch]

/-! ### The groups of a list and its first interval -/

/-- All intervals are below one that all of them lie before. -/
theorem groups_of_before (h : ∀ i ∈ rest, i.Before new) :
    below new rest = rest ∧ above new rest = [] ∧ touching new rest = [] := by
  refine ⟨List.filter_eq_self.mpr fun i hi => ?_, List.filter_eq_nil_iff.mpr fun i hi => ?_,
    List.filter_eq_nil_iff.mpr fun i hi => ?_⟩
  · simpa using h i hi
  · simpa using (h i hi).not_before
  · simp [h i hi]

/-- **The walk divides the stored intervals into three groups.** Those above and those below stay as
they are, and those that touch become one interval together with the new one. -/
theorem place_eq (new : Interval) {stored : List Interval}
    (h : stored.Pairwise fun upper lower => lower.Before upper) :
    new.place stored =
      above new stored ++ (touching new stored).foldl (fun grown i => i.hull grown) new ::
        below new stored := by
  induction stored generalizing new with
  | nil => rfl
  | cons top rest ih =>
    obtain ⟨hrest, htail⟩ := List.pairwise_cons.mp h
    rw [place]
    split
    · -- merged: the rest is grouped by the grown interval as by the new one
      next htouch =>
      obtain ⟨hbelow, habove, htouching⟩ := groups_hull hrest htouch
      obtain ⟨hlower, hupper⟩ := (touches_iff top new).mp htouch
      rw [ih _ htail, hbelow, habove, htouching]
      simp [above, below, touching, hlower, hupper]
    · next hapart =>
      rw [touches_iff] at hapart
      split
      · -- passed by: the top is above
        next hlow =>
        have hbefore : new.Before top := by
          have htop := top.low_le_high
          rw [Int32.lt_iff_toInt_lt] at hlow
          simp only [Before] at *
          omega
        rw [ih new htail]
        simp [above, below, touching, hbefore, hbefore.not_before]
      · -- the walk ends here: the top is below, and so is all the rest
        next hlow =>
        have hbefore : top.Before new := by
          have hnew := new.low_le_high
          rw [Int32.lt_iff_toInt_lt] at hlow
          simp only [Before] at *
          omega
        have hall : ∀ i ∈ top :: rest, i.Before new := by
          intro i hi
          rcases List.mem_cons.mp hi with rfl | hi
          · exact hbefore
          · exact (hrest i hi).trans hbefore
        obtain ⟨hbelow, habove, htouching⟩ := groups_of_before hall
        rw [hbelow, habove, htouching]
        rfl

/-- Bounds that are in order and not negative are those of an interval. -/
theorem exists_bounds_eq {b : Bounds} (hnonneg : 0 ≤ b.low.toInt)
    (hordered : b.low.toInt ≤ b.high.toInt) : ∃ i : Interval, i.bounds = b := by
  have hzero : 0 ≤ b.low := by
    rw [Int32.le_iff_toInt_le, Int32.toInt_zero]
    exact hnonneg
  exact ⟨⟨b.low, b.high, hzero, Int32.le_iff_toInt_le.mpr hordered⟩, rfl⟩

/-! ### The ends of the interval in the middle -/

/-- An interval that grows by others one by one begins with the least of all low ends. -/
theorem low_foldr_hull (new : Interval) (is : List Interval) :
    (is.foldr hull new).low = (is.map low).foldr min new.low := by
  induction is with
  | nil => rfl
  | cons i is ih =>
    show min i.low (is.foldr hull new).low = min i.low ((is.map low).foldr min new.low)
    rw [ih]

/-- An interval that grows by others one by one ends with the greatest of all high ends. -/
theorem high_foldr_hull (new : Interval) (is : List Interval) :
    (is.foldr hull new).high = (is.map high).foldr max new.high := by
  induction is with
  | nil => rfl
  | cons i is ih =>
    show max i.high (is.foldr hull new).high = max i.high ((is.map high).foldr max new.high)
    rw [ih]

end Interval

namespace IntervalSet

open PageSelection.Interval

/-! ### Inserting bounds -/

/-- Reversed bounds change nothing. -/
theorem insert_of_reversed (s : IntervalSet) {b : Bounds} (h : b.high.toInt < b.low.toInt) :
    s.insert b = .ok s := by
  have hle : ¬ b.low ≤ b.high := by
    rw [Int32.le_iff_toInt_le]
    exact Int.not_le.mpr h
  unfold insert
  rw [dif_neg hle]
  rfl

/-- The bounds of an interval are inserted by adding it. -/
theorem insert_bounds (s : IntervalSet) (i : Interval) : s.insert i.bounds = .ok (s.add i) := by
  have hle : i.bounds.low ≤ i.bounds.high := i.ordered
  have hzero : 0 ≤ i.bounds.low := i.nonneg
  unfold insert
  rw [dif_pos hle, dif_pos hzero]
  rfl

/-- **Adding an interval,** in ascending order. -/
theorem intervals_add (s : IntervalSet) (new : Interval) :
    (s.add new).intervals =
      below new s.intervals ++ (touching new s.intervals).foldr hull new ::
        above new s.intervals := by
  show (new.place s.descending).reverse = _
  rw [place_eq new s.separated]
  simp only [List.reverse_append, List.reverse_cons, List.append_assoc, List.singleton_append,
    below, above, touching, intervals, List.filter_reverse, List.foldr_reverse]

/-- An interval that is apart from the new one stays. -/
theorem mem_intervals_add_of_apart {s : IntervalSet} {new i : Interval} (hi : i ∈ s.intervals)
    (hapart : i.Before new ∨ new.Before i) : i ∈ (s.add new).intervals := by
  rw [intervals_add, List.mem_append, List.mem_cons]
  rcases hapart with hbelow | habove
  · exact .inl (List.mem_filter.mpr ⟨hi, by simpa using hbelow⟩)
  · exact .inr (.inr (List.mem_filter.mpr ⟨hi, by simpa using habove⟩))

/-- **Inserting is a split in three.** Reversed bounds leave the set as it is. Bounds `low ≤ high`
that are not negative leave the intervals with `i.high + 1 < low` in front and those with
`high + 1 < i.low` behind, each unchanged and in their order, and put in their midst one interval,
from the least of `low` and the low ends of the others to the greatest of `high` and the high ends
of the others. So nothing in the result touches that interval, and no interval that is apart from
the bounds has been altered. -/
theorem insert_splits (s : IntervalSet) (b : Bounds) :
    (b.high.toInt < b.low.toInt → s.insert b = .ok s) ∧
    (0 ≤ b.low.toInt → b.low.toInt ≤ b.high.toInt →
      ∃ (t : IntervalSet) (merged : Interval), s.insert b = .ok t ∧
        t.intervals =
          (s.intervals.filter fun i => i.high.toInt + 1 < b.low.toInt) ++
            merged :: (s.intervals.filter fun i => b.high.toInt + 1 < i.low.toInt) ∧
        (∀ others, others = (s.intervals.filter fun i =>
            ¬ i.high.toInt + 1 < b.low.toInt ∧ ¬ b.high.toInt + 1 < i.low.toInt) →
          merged.low = (others.map low).foldr min b.low ∧
          merged.high = (others.map high).foldr max b.high) ∧
        (∀ i ∈ t.intervals, i = merged ∨
          i.high.toInt + 1 < merged.low.toInt ∨ merged.high.toInt + 1 < i.low.toInt) ∧
        ∀ i ∈ s.intervals,
          i.high.toInt + 1 < b.low.toInt ∨ b.high.toInt + 1 < i.low.toInt → i ∈ t.intervals) := by
  refine ⟨insert_of_reversed s, fun hnonneg hordered => ?_⟩
  -- the bounds are those of an interval, and inserting them is adding it
  obtain ⟨new, rfl⟩ := Interval.exists_bounds_eq hnonneg hordered
  have hsplit := s.intervals_add new
  refine ⟨s.add new, (touching new s.intervals).foldr hull new, insert_bounds s new, hsplit,
    ?_, ?_, ?_⟩
  · rintro others rfl
    exact ⟨low_foldr_hull new _, high_foldr_hull new _⟩
  · intro i hi
    -- the result is separated, and the interval in the middle is part of it
    have hpairwise := (s.add new).pairwise_intervals
    rw [hsplit] at hi hpairwise
    obtain ⟨-, hright, hleft⟩ := List.pairwise_append.mp hpairwise
    rcases List.mem_append.mp hi with hi | hi
    · exact .inr (.inl (hleft i hi _ List.mem_cons_self))
    · rcases List.mem_cons.mp hi with rfl | hi
      · exact .inl rfl
      · exact .inr (.inr ((List.pairwise_cons.mp hright).1 i hi))
  · exact fun i hi => mem_intervals_add_of_apart hi

/-- Bounds between four intervals: one stays below and one above, and the two that are met, one of
them only by its next number, become one with the bounds. Reversed, the bounds change nothing. -/
theorem insert_splits_between :
    ∃ s t : IntervalSet, s.intervals.map Interval.bounds = [⟨1, 2⟩, ⟨5, 6⟩, ⟨9, 10⟩, ⟨13, 13⟩] ∧
      s.insert ⟨4, 8⟩ = .ok t ∧ t.intervals.map Interval.bounds = [⟨1, 2⟩, ⟨4, 10⟩, ⟨13, 13⟩] ∧
      s.insert ⟨8, 4⟩ = .ok s := by
  obtain ⟨s, hs⟩ : ∃ s : IntervalSet, s.intervals =
      [⟨1, 2, by decide, by decide⟩, ⟨5, 6, by decide, by decide⟩,
        ⟨9, 10, by decide, by decide⟩, ⟨13, 13, by decide, by decide⟩] :=
    ⟨⟨[⟨13, 13, by decide, by decide⟩, ⟨9, 10, by decide, by decide⟩,
      ⟨5, 6, by decide, by decide⟩, ⟨1, 2, by decide, by decide⟩], by decide⟩, rfl⟩
  obtain ⟨-, hsplit⟩ := insert_splits s ⟨4, 8⟩
  obtain ⟨hreversed, -⟩ := insert_splits s ⟨8, 4⟩
  obtain ⟨t, merged, hinsert, ht, hends, -, -⟩ := hsplit (by decide) (by decide)
  obtain ⟨hlow, hhigh⟩ := hends _ rfl
  rw [hs] at ht hlow hhigh
  have hmerged : merged.bounds = ⟨4, 10⟩ := by
    unfold bounds
    rw [hlow, hhigh]
    decide
  refine ⟨s, t, ?_, hinsert, ?_, hreversed (by decide)⟩
  · rw [hs]
    rfl
  · rw [ht, List.map_append, List.map_cons, hmerged]
    decide

end IntervalSet

end PageSelection
